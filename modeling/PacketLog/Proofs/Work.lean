import PacketLog.Proofs.Spool
import PacketLog.Timeline

/-!
# Proofs — Work

What a writer does in one step, and what every step of a writer and of those around it keeps.

* `Writer.work_of_step?`: the twelve things a writer does, each with the phase it is done in, what
  makes the writer do it, and what it shows.
* `Writer.Lawful`: what later arguments use of a step.  Lines that leave the queue for the writer
  are in its hands until they are settled, their number is the one in flight, and a writer that
  has finished was ending and found the queue empty.
* `Timeline.run_of_works`: on a clock with a sink the writer takes step after step of this kind.
-/

namespace PacketLog

namespace Writer

/-- What can be seen of the step that a stimulus causes. -/
def shows (plan : Plan) (w : Writer) : Stimulus → Occurrence
  | .nothing =>
    match w.phase with
    | .taking => .batch (w.queue.take (max plan.batchSize 1)).1
    | _       => .other
  | .reply r =>
    match w.phase, r with
    | .writing line _ _, .ok         => .written line
    | .writing line rest failed, r   =>
      match (plan.retry w.brought).decide failed r with
      | .giveUp _ => .lost (line :: rest)
      | _         => .other
    | _, _ => .other
  | .timer => .other

/-- The things a writer does: in which phase, what makes it do so, and what it shows. -/
inductive Work (plan : Plan) (w : Writer) : Stimulus → Occurrence → Writer → Prop where
  /-- It notices that it has been cancelled. -/
  | notice (hp : w.phase = .idle) (hc : w.cancelled = true) :
      Work plan w .nothing .other { w with phase := .taking, ending := true }
  | wake (hp : w.phase = .idle) (hc : w.cancelled = false) (hq : w.queue.permit = true) :
      Work plan w .nothing .other { w.withQueue w.queue.poll.2 with phase := .taking }
  | rest (hp : w.phase = .taking) (hq : w.queue.items = []) (he : w.ending = false) :
      Work plan w .nothing (.batch []) { w with phase := .idle }
  | finish (hp : w.phase = .taking) (hq : w.queue.items = []) (he : w.ending = true) :
      Work plan w .nothing (.batch []) { w with phase := .ended .finished [] }
  | take {line : LogLine} {rest : List LogLine} (hp : w.phase = .taking)
      (hq : (w.queue.take (max plan.batchSize 1)).1 = line :: rest) :
      Work plan w .nothing (.batch (line :: rest))
        { w.withQueue (w.queue.take (max plan.batchSize 1)).2 with
          inFlight := rest.length + 1
          phase    := .writing line rest 0 }
  | write {line : LogLine} {rest : List LogLine} {failed : Nat}
      (hp : w.phase = .writing line rest failed) :
      Work plan w (.reply .ok) (.written line) (w.settle rest)
  | giveUp {line : LogLine} {rest : List LogLine} {failed : Nat} {r : Reply} {e : SinkError}
      (hp : w.phase = .writing line rest failed)
      (hr : (plan.retry w.brought).decide failed r = .giveUp e) :
      Work plan w (.reply r) (.lost (line :: rest)) (w.abandon (line :: rest))
  | pause {line : LogLine} {rest : List LogLine} {failed nanos : Nat} {r : Reply}
      (hp : w.phase = .writing line rest failed)
      (hr : (plan.retry w.brought).decide failed r = .repeatAfter nanos) :
      Work plan w (.reply r) .other { w with phase := .waiting line rest (failed + 1) nanos }
  | resume {line : LogLine} {rest : List LogLine} {failed nanos : Nat}
      (hp : w.phase = .waiting line rest failed nanos) :
      Work plan w .timer .other { w with phase := .writing line rest failed }
  | flush {r : Reply} (hp : w.phase = .flushing) (hr : r ≠ .broke) :
      Work plan w (.reply r) .other { w with phase := .taking }
  | breakWrite {line : LogLine} {rest : List LogLine} {failed : Nat} {r : Reply}
      (hp : w.phase = .writing line rest failed)
      (hr : (plan.retry w.brought).decide failed r = .breakDown) :
      Work plan w (.reply r) .other (w.stop .brokeDown)
  | breakFlush (hp : w.phase = .flushing) :
      Work plan w (.reply .broke) .other (w.stop .brokeDown)

/-- Nothing the writer does is seen as done by others. -/
theorem Work.inward {plan : Plan} {w w' : Writer} {s : Stimulus} {o : Occurrence}
    (h : Work plan w s o w') :
    o.outcome? = none ∧ o.accepted = [] ∧ o.refused = 0 ∧ o.drained = [] ∧ o ≠ .cancel := by
  cases h <;> exact ⟨rfl, rfl, rfl, rfl, nofun⟩

theorem work_of_wake? {plan : Plan} {w w' : Writer} (hp : w.phase = .idle)
    (h : w.wake? = some w') : Work plan w .nothing .other w' := by
  unfold wake? at h
  cases hc : w.cancelled with
  | true =>
      rw [if_pos hc] at h
      cases h
      exact .notice hp hc
  | false =>
      rw [if_neg (by simp [hc])] at h
      cases hq : w.queue.permit with
      | true =>
          simp only [Queue.poll, hq, Option.some.injEq] at h
          exact h ▸ .wake hp hc hq
      | false => simp [Queue.poll, hq] at h

theorem work_takeBatch {plan : Plan} {w : Writer} (hp : w.phase = .taking) :
    Work plan w .nothing (.batch (w.queue.take (max plan.batchSize 1)).1)
      (w.takeBatch (max plan.batchSize 1)) := by
  unfold takeBatch
  rcases ht : w.queue.take (max plan.batchSize 1) with ⟨_ | ⟨line, rest⟩, q⟩
  · have hq : w.queue.items = [] := by
      have hn : w.queue.items.take (max plan.batchSize 1) = [] := congrArg Prod.fst ht
      exact (List.take_eq_nil_iff.mp hn).resolve_left (by omega)
    by_cases he : w.ending = true
    · simp only [if_pos he]
      exact .finish hp hq he
    · simp only [if_neg he]
      exact .rest hp hq (by simpa using he)
  · have h : Work plan w .nothing _ _ := .take hp (congrArg Prod.fst ht)
    rwa [ht] at h

theorem work_afterWrite {plan : Plan} {w : Writer} {line : LogLine} {rest : List LogLine}
    {failed : Nat} (r : Reply) (hp : w.phase = .writing line rest failed) :
    Work plan w (.reply r) (w.shows plan (.reply r))
      (w.afterWrite (plan.retry w.brought) line rest failed r) := by
  unfold afterWrite
  cases r with
  | ok => simpa [shows, hp] using .write hp
  | broke => simpa [shows, hp, Retry.decide] using .breakWrite hp rfl
  | failed e =>
      cases hr : (plan.retry w.brought).decide failed (.failed e) with
      | done =>
          -- a failure is never taken for a success
          unfold Retry.decide at hr
          simp only at hr
          split at hr
          · cases hr
          · split at hr <;> cases hr
      | giveUp e' => simpa [shows, hp, hr] using .giveUp hp hr
      | repeatAfter nanos => simpa [shows, hp, hr] using .pause hp hr
      | breakDown => simpa [shows, hp, hr] using .breakWrite hp hr

theorem work_afterFlush {plan : Plan} {w : Writer} (r : Reply) (hp : w.phase = .flushing) :
    Work plan w (.reply r) .other (w.afterFlush r) := by
  cases r with
  | ok => exact .flush hp nofun
  | failed e => exact .flush hp nofun
  | broke => exact .breakFlush hp

/-- **A step is one of the things a writer does.** -/
theorem work_of_step? {plan : Plan} {w w' : Writer} {s : Stimulus}
    (h : w.step? plan s = some w') : Work plan w s (w.shows plan s) w' := by
  cases s with
  | nothing =>
      cases hp : w.phase with
      | idle =>
          simp only [step?, hp] at h
          simpa [shows, hp] using work_of_wake? hp h
      | taking =>
          simp only [step?, hp, Option.some.injEq] at h
          simpa [shows, hp, ← h] using work_takeBatch hp
      | _ => simp [step?, hp] at h
  | reply r =>
      cases hp : w.phase with
      | writing line rest failed =>
          simp only [step?, hp, Option.some.injEq] at h
          exact h ▸ work_afterWrite r hp
      | flushing =>
          simp only [step?, hp, Option.some.injEq] at h
          simpa [shows, hp, ← h] using work_afterFlush r hp
      | _ => simp [step?, hp] at h
  | timer =>
      cases hp : w.phase with
      | waiting line rest failed nanos =>
          simp only [step?, hp, Option.some.injEq] at h
          exact h ▸ .resume hp
      | _ => simp [step?, hp] at h

/-! ### What every step keeps -/

/-- What a step does to lines and to the way to the end. -/
structure Lawful (w : Writer) (o : Occurrence) (w' : Writer) : Prop where
  spool : Spool.Conserves w.spool o w'.spool
  /-- What the writer takes in hand it has in hand until it is settled. -/
  hands : o.settled ++ w'.phase.unsettled = w.phase.unsettled ++ o.batched
  fresh : ∀ ls, o = .batch ls → w.phase.unsettled = []
  inFlight : w.inFlight = w.phase.unsettled.length → w'.inFlight = w'.phase.unsettled.length
  cancelled : w'.cancelled = true → w.cancelled = true ∨ o = .cancel
  ending : w'.ending = true → w.ending = true ∨ w.cancelled = true
  /-- A writer that has finished did so before, or finds the queue empty now. -/
  finished : ∀ lines, w'.phase = .ended .finished lines →
    (w.phase = .ended .finished lines ∧ ∀ ls, o ≠ .batch ls) ∨
      (w.ending = true ∧ o = .batch [] ∧ lines = [] ∧ w'.queue.items = [])

namespace Lawful

/-- A step that shows nothing and leaves the lines where they are. -/
theorem quiet {w w' : Writer} (hs : Spool.Conserves w.spool .other w'.spool)
    (hu : w'.phase.unsettled = w.phase.unsettled) (hi : w'.inFlight = w.inFlight)
    (hc : w'.cancelled = w.cancelled)
    (he : w'.ending = true → w.ending = true ∨ w.cancelled = true)
    (hf : ∀ lines, w'.phase ≠ .ended .finished lines) : Lawful w .other w' where
  spool     := hs
  hands     := hu.trans (List.append_nil _).symm
  fresh     := nofun
  inFlight  := fun h => by rw [hi, hu, h]
  cancelled := fun h => .inl (hc ▸ h)
  ending    := he
  finished  := fun lines h => absurd h (hf lines)

/-- A step by which only the spool changes. -/
theorem outside {w : Writer} {o : Occurrence} {s : Spool} (hs : Spool.Conserves w.spool o s)
    (hn : o.settled = []) (hb : ∀ ls, o ≠ .batch ls) : Lawful w o { w with spool := s } where
  spool     := hs
  hands     := by simp [hn, Occurrence.batched_of_ne hb]
  fresh     := fun ls h => absurd h (hb ls)
  inFlight  := id
  cancelled := .inl
  ending    := .inl
  finished  := fun _ h => .inl ⟨h, hb⟩

theorem refl (w : Writer) : Lawful w .other w :=
  .outside (Spool.conserves_other _) rfl nofun

theorem offer (w : Writer) (line : LogLine) :
    Lawful w (.offer line (w.queue.offer line).1) (w.withQueue (w.queue.offer line).2) :=
  .outside (Spool.conserves_offer w.spool line) (by cases (w.queue.offer line).1 <;> rfl) nofun

/-- Someone else takes lines out of the queue. -/
theorem drain (w : Writer) (n : Nat) :
    Lawful w (.drain (w.queue.take n).1) (w.withQueue (w.queue.take n).2) :=
  .outside (Spool.conserves_take (.inl rfl)) rfl nofun

theorem cancel (w : Writer) : Lawful w .cancel w.cancel where
  spool     := .still rfl rfl rfl ⟨rfl, rfl, rfl⟩
  hands     := (List.append_nil _).symm
  fresh     := nofun
  inFlight  := id
  cancelled := fun _ => .inr rfl
  ending    := .inl
  finished  := fun _ h => .inl ⟨h, nofun⟩

end Lawful

/-! ### The steps of a writer -/

section HandOver

variable (w : Writer) (lines : List LogLine)

@[simp] theorem spool_handOver : (w.handOver lines).spool = w.spool := by cases lines <;> rfl

@[simp] theorem unsettled_handOver : (w.handOver lines).phase.unsettled = lines := by
  cases lines <;> rfl

@[simp] theorem inFlight_handOver : (w.handOver lines).inFlight = w.inFlight := by
  cases lines <;> rfl

@[simp] theorem cancelled_handOver : (w.handOver lines).cancelled = w.cancelled := by
  cases lines <;> rfl

@[simp] theorem ending_handOver : (w.handOver lines).ending = w.ending := by cases lines <;> rfl

@[simp] theorem hasEnded_handOver : (w.handOver lines).hasEnded = false := by cases lines <;> rfl

end HandOver

theorem hasEnded_of_phase {w : Writer} {how : Ending} {lines : List LogLine}
    (h : w.phase = .ended how lines) : w.hasEnded = true := by
  simp [hasEnded, h]

theorem lawful_stop {w : Writer} {how : Ending} (hh : how ≠ .finished) :
    Lawful w .other (w.stop how) :=
  .quiet (Spool.conserves_other _) rfl rfl rfl .inl fun _ h => hh (by cases h; rfl)

theorem lawful_settle {w : Writer} {line : LogLine} {rest : List LogLine} {failed : Nat}
    (hp : w.phase = .writing line rest failed) : Lawful w (.written line) (w.settle rest) where
  spool     := by
    rw [settle, spool_handOver]
    exact .still rfl rfl rfl ⟨rfl, rfl, rfl⟩
  hands     := by
    rw [settle, unsettled_handOver, hp]
    exact (List.append_nil _).symm
  fresh     := nofun
  inFlight  := fun h => by
    rw [hp, Phase.unsettled, List.length_cons] at h
    simp [settle, h]
  cancelled := fun h => .inl (by simpa [settle, count] using h)
  ending    := fun h => .inl (by simpa [settle, count] using h)
  finished  := fun lines h => by simpa [settle] using hasEnded_of_phase h

theorem lawful_abandon {w : Writer} {line : LogLine} {rest : List LogLine} {failed : Nat}
    (hp : w.phase = .writing line rest failed) :
    Lawful w (.lost (line :: rest)) (w.abandon (line :: rest)) where
  spool     := .still rfl rfl rfl ⟨rfl, rfl, rfl⟩
  hands     := by rw [hp]; rfl
  fresh     := nofun
  inFlight  := fun _ => rfl
  cancelled := .inl
  ending    := .inl
  finished  := nofun

/-- **Every step of a writer is lawful.** -/
theorem Work.lawful {plan : Plan} {w w' : Writer} {s : Stimulus} {o : Occurrence}
    (h : Work plan w s o w') : Lawful w o w' := by
  cases h with
  | notice hp hc =>
      exact .quiet (Spool.conserves_other _) (by rw [hp]; rfl) rfl rfl
        (fun _ => .inr hc) (fun _ h => by cases h)
  | wake hp hc hq =>
      exact .quiet (.still rfl rfl rfl ⟨rfl, rfl, rfl⟩) (by rw [hp]; rfl) rfl rfl .inl
        (fun _ h => by cases h)
  | rest hp hq he =>
      exact ⟨.still rfl rfl rfl ⟨rfl, rfl, rfl⟩,
        by rw [hp]; rfl, fun _ _ => by rw [hp]; rfl,
        fun h => by simpa [hp, Phase.unsettled] using h, .inl, .inl, fun _ h => by cases h⟩
  | finish hp hq he =>
      exact ⟨.still rfl rfl rfl ⟨rfl, rfl, rfl⟩,
        by rw [hp]; rfl, fun _ _ => by rw [hp]; rfl,
        fun h => by simpa [hp, Phase.unsettled] using h, .inl, .inl,
        fun lines h => .inr ⟨he, rfl, by cases h; rfl, hq⟩⟩
  | take hp hq =>
      exact ⟨Spool.conserves_take (.inr (congrArg Occurrence.batch hq.symm)),
        by rw [hp]; rfl, fun _ _ => by rw [hp]; rfl,
        fun _ => rfl, .inl, .inl, fun _ h => by cases h⟩
  | write hp => exact lawful_settle hp
  | giveUp hp hr => exact lawful_abandon hp
  | pause hp hr =>
      exact .quiet (Spool.conserves_other _) (by rw [hp]; rfl) rfl rfl .inl (fun _ h => by cases h)
  | resume hp =>
      exact .quiet (Spool.conserves_other _) (by rw [hp]; rfl) rfl rfl .inl (fun _ h => by cases h)
  | flush hp hr =>
      exact .quiet (Spool.conserves_other _) (by rw [hp]; rfl) rfl rfl .inl (fun _ h => by cases h)
  | breakWrite hp hr => exact lawful_stop (fun h => by cases h)
  | breakFlush hp => exact lawful_stop (fun h => by cases h)

theorem lawful_of_step? {plan : Plan} {w w' : Writer} {s : Stimulus}
    (h : w.step? plan s = some w') : Lawful w (w.shows plan s) w' :=
  (work_of_step? h).lawful

end Writer

/-! ### On a clock -/

namespace Timeline

variable {σ : Type} {s : Sink σ} {plan : Plan} {limit : Nat} {t t' : Timeline σ} {o : Occurrence}

/-- What can be seen of the next step of the writer. -/
def shows (plan : Plan) (t : Timeline σ) : Occurrence :=
  match t.next? with
  | some (_, st) => t.writer.shows plan st
  | none         => .other

theorem shows_of_next? {time : Nat} {st : Stimulus} (h : t.next? = some (time, st)) :
    t.shows plan = t.writer.shows plan st := by
  rw [shows, h]

theorem run_of_step?_eq_none (h : t.step? s plan limit = none) : t.run s plan limit = t := by
  rw [run]
  split
  · rfl
  · rename_i t' ht
    cases h.symm.trans ht

theorem run_of_step? (h : t.step? s plan limit = some t') :
    t.run s plan limit = t'.run s plan limit := by
  rw [run]
  split
  · rename_i hn
    rw [h] at hn
    cases hn
  · rename_i t'' hs
    rw [h] at hs
    cases hs
    rfl

/-- The writer goes on before `limit`. -/
structure Works (s : Sink σ) (plan : Plan) (limit : Nat) (t : Timeline σ) (o : Occurrence)
    (t' : Timeline σ) : Prop where
  step  : t.step? s plan limit = some t'
  shows : t.shows plan = o

/-- What happens then is a step of the writer for some reason. -/
theorem Works.exists_step? (h : Works s plan limit t o t') :
    ∃ st, t.writer.step? plan st = some t'.writer ∧ t.writer.shows plan st = o := by
  obtain ⟨time, st, w, hn, -, hw, ht⟩ := step?_eq_some_iff.mp h.step
  rw [← h.shows, shows_of_next? hn, ← ht, writer_follow]
  exact ⟨st, hw, rfl⟩

/-- **All that a writer does before a moment is a run of such steps.** -/
theorem run_of_works (s : Sink σ) (plan : Plan) (limit : Nat) (t : Timeline σ) :
    ∃ tr, Run (Works s plan limit) t tr (t.run s plan limit) := by
  -- along the recursion of `Timeline.run`, each turn of which is one step of the writer
  fun_induction run s plan limit t with
  | case1 t h => exact ⟨[], .start⟩
  | case2 t t' h ih =>
      obtain ⟨tr, run⟩ := ih
      exact ⟨_, (Run.one ⟨h, rfl⟩).trans run⟩

end Timeline

end PacketLog
