import Mathlib.Data.List.Perm.Basic
import PacketLog.Proofs.Work
import PacketLog.Sink.Scripted

/-!
# Proofs — Conservation

The books of a writer and the queue it works on, in every order of offers and steps and whatever
the sink answers.

* `Writer.balanced_of_run`: after every run the lines the writer has ever taken in hand are, in
  order, those that are settled and those it has in hand, and the number of the latter is the one
  in flight.  A writer that has finished was told to end and found the queue empty after that.
* `Writer.Balanced.cleared`: when one has done with a writer every line that is left is counted
  once, unless the writer has finished by itself.
* `Timeline.exists_run_writer`: what a writer does on a clock is steps of this kind.
* `Writer.lines_conserved`: every accepted line is written, given up, in flight or queued, and
  none is left over when the writer is closed or shut down.
-/

namespace PacketLog

/-- What leaves the queue goes to the writer or to someone else. -/
theorem Trace.removed_perm (tr : Trace) :
    (tr.flatMap (·.removed)).Perm (tr.flatMap (·.drained) ++ tr.flatMap (·.batched)) :=
  (List.flatMap_append_perm tr (·.drained) (·.batched)).symm

/-- What is settled is taken by the sink or given up. -/
theorem Trace.settled_perm (tr : Trace) :
    (tr.flatMap (·.settled)).Perm (tr.flatMap (·.taken) ++ tr.flatMap (·.givenUp)) :=
  (List.flatMap_append_perm tr (·.taken) (·.givenUp)).symm

namespace Writer

/-- A step of a writer or of those around it. -/
inductive Step (plan : Plan) (w : Writer) : Occurrence → Writer → Prop where
  | offer (line : LogLine) :
      Step plan w (.offer line (w.queue.offer line).1) (w.withQueue (w.queue.offer line).2)
  /-- Someone else takes lines out of the queue. -/
  | drain (n : Nat) :
      Step plan w (.drain (w.queue.take n).1) (w.withQueue (w.queue.take n).2)
  /-- The writer goes on, for whatever reason. -/
  | work {s : Stimulus} {w' : Writer} (h : w.step? plan s = some w') :
      Step plan w (w.shows plan s) w'
  | cancel : Step plan w .cancel w.cancel
  /-- The writer is stopped, wherever it is. -/
  | abort (h : w.hasEnded = false) : Step plan w .other (w.stop .aborted)

theorem Step.lawful {plan : Plan} {w w' : Writer} {o : Occurrence} (h : Step plan w o w') :
    Lawful w o w' := by
  cases h with
  | offer line => exact .offer w line
  | drain n => exact .drain w n
  | work h => exact lawful_of_step? h
  | cancel => exact .cancel w
  | abort h => exact lawful_stop nofun

/-! ### The books -/

/-- These are the lines of the batch taken last that are not settled, in order. -/
def InHand (tr : Trace) (lines : List LogLine) : Prop :=
  ((∀ ls, .batch ls ∉ tr) ∧ lines = []) ∨
    ∃ (before after : Trace) (batch : List LogLine), tr = before ++ .batch batch :: after ∧
      (∀ ls, .batch ls ∉ after) ∧ batch = after.flatMap (·.settled) ++ lines

/-- After it was told to end the writer asked for lines once more and got none, and did not ask
again.  What the queue holds has been accepted since. -/
def FoundEmpty (tr : Trace) (w : Writer) : Prop :=
  ∃ before after : Trace, tr = before ++ .batch [] :: after ∧ .cancel ∈ before ∧
    (∀ ls, .batch ls ∉ after) ∧ w.queue.items <:+ after.flatMap (·.accepted)

/-- What a writer that was new holds and has counted, after what a trace shows. -/
structure Balanced (tr : Trace) (w : Writer) : Prop where
  spool : w.spool.Balanced tr
  hands : tr.flatMap (·.batched) = tr.flatMap (·.settled) ++ w.phase.unsettled
  inHand : InHand tr w.phase.unsettled
  inFlight : w.inFlight = w.phase.unsettled.length
  cancelled : w.cancelled = true → .cancel ∈ tr
  ending : w.ending = true → .cancel ∈ tr
  finished : ∀ lines, w.phase = .ended .finished lines → lines = [] ∧ FoundEmpty tr w

theorem InHand.more {tr : Trace} {o : Occurrence} {w w' : Writer}
    (h : InHand tr w.phase.unsettled) (step : Lawful w o w') :
    InHand (tr ++ [o]) w'.phase.unsettled := by
  have hs := step.hands
  -- a batch is taken only when nothing of the one before is left
  by_cases hb : ∃ ls, o = .batch ls
  · obtain ⟨ls, rfl⟩ := hb
    rw [step.fresh ls rfl] at hs
    exact .inr ⟨tr, [], ls, rfl, nofun, hs.symm⟩
  · have hb : ∀ ls, o ≠ .batch ls := fun ls he => hb ⟨ls, he⟩
    rw [Occurrence.batched_of_ne hb, List.append_nil] at hs
    rcases h with ⟨hn, hu⟩ | ⟨before, after, batch, rfl, ha, hl⟩
    · rw [hu] at hs
      exact .inl ⟨fun ls => Trace.not_mem_snoc (hn ls) (hb ls), (List.append_eq_nil_iff.mp hs).2⟩
    · refine .inr ⟨before, after ++ [o], batch, by simp,
        fun ls => Trace.not_mem_snoc (ha ls) (hb ls), ?_⟩
      rw [hl, ← hs]
      simp

/-- A step that takes no batch leaves a writer that has found the queue empty so. -/
theorem FoundEmpty.more {tr : Trace} {o : Occurrence} {w w' : Writer} (h : FoundEmpty tr w)
    (hs : Spool.Conserves w.spool o w'.spool) (hb : ∀ ls, o ≠ .batch ls) :
    FoundEmpty (tr ++ [o]) w' := by
  obtain ⟨before, after, rfl, hc, ha, hq⟩ := h
  obtain ⟨gone, hq⟩ := hq
  refine ⟨before, after ++ [o], by simp, hc, fun ls => Trace.not_mem_snoc (ha ls) (hb ls),
    gone ++ o.removed, ?_⟩
  calc gone ++ o.removed ++ w'.queue.items
      = gone ++ (w.queue.items ++ o.accepted) := by
        rw [List.append_assoc]
        exact congrArg (gone ++ ·) hs.items
    _ = (after ++ [o]).flatMap (·.accepted) := by simp [← hq]

namespace Balanced

theorem start (capacity : Nat) : Balanced [] { spool := { queue := .new capacity } } :=
  ⟨.start capacity, rfl, .inl ⟨nofun, rfl⟩, rfl, nofun, nofun, nofun⟩

theorem more {tr : Trace} {o : Occurrence} {w w' : Writer} (h : Balanced tr w)
    (step : Lawful w o w') : Balanced (tr ++ [o]) w' where
  spool := h.spool.more step.spool
  hands := by
    calc (tr ++ [o]).flatMap (·.batched)
        = tr.flatMap (·.settled) ++ (w.phase.unsettled ++ o.batched) := by simp [h.hands]
      _ = tr.flatMap (·.settled) ++ (o.settled ++ w'.phase.unsettled) := by rw [step.hands]
      _ = (tr ++ [o]).flatMap (·.settled) ++ w'.phase.unsettled := by simp
  inHand := h.inHand.more step
  inFlight := step.inFlight h.inFlight
  cancelled := fun hw => by
    rcases step.cancelled hw with hw | rfl
    · exact List.mem_append_left _ (h.cancelled hw)
    · exact List.mem_append_right _ (List.mem_singleton.mpr rfl)
  ending := fun hw => by
    rcases step.ending hw with hw | hw
    · exact List.mem_append_left _ (h.ending hw)
    · exact List.mem_append_left _ (h.cancelled hw)
  finished := fun lines hp => by
    rcases step.finished lines hp with ⟨hp, hb⟩ | ⟨he, rfl, rfl, hq⟩
    · obtain ⟨hl, hf⟩ := h.finished lines hp
      exact ⟨hl, hf.more step.spool hb⟩
    · exact ⟨rfl, tr, [], rfl, h.ending he, nofun, by rw [hq]; exact List.nil_suffix⟩

/-- Every accepted line is taken by the sink, given up, taken out by others, in flight or
queued. -/
theorem length_accepted {tr : Trace} {w : Writer} (h : Balanced tr w) :
    (tr.flatMap (·.accepted)).length =
      (tr.flatMap (·.taken)).length + (tr.flatMap (·.givenUp)).length +
        (tr.flatMap (·.drained)).length + w.inFlight + w.queue.size := by
  have ha := congrArg List.length h.spool.items
  have hb := congrArg List.length h.hands
  have hr := (Trace.removed_perm tr).length_eq
  have hs := (Trace.settled_perm tr).length_eq
  have hi := h.inFlight
  simp only [List.length_append] at ha hb hr hs
  simp only [Queue.size, queue]
  omega

end Balanced

/-- **The books of a writer are balanced after every run of lawful steps.** -/
theorem balanced_of_run {capacity : Nat} {tr : Trace} {w : Writer}
    (h : Run Lawful { spool := { queue := .new capacity } } tr w) : Balanced tr w := by
  induction h with
  | start => exact .start capacity
  | more _ step ih => exact ih.more step

/-! ### The end -/

section Close

variable {w : Writer} {inTime : Bool}

theorem exists_phase_of_hasFinished (h : w.hasFinished = true) :
    ∃ lines, w.phase = .ended .finished lines := by
  unfold hasFinished at h
  split at h
  · next lines hp => exact ⟨lines, hp⟩
  · cases h

/-- There is nothing to do with a writer that has finished in time. -/
theorem close_eq_self (h : (inTime && w.hasFinished) = true) : w.close inTime = w := by
  obtain ⟨rfl, hf⟩ := Bool.and_eq_true_iff.mp h
  obtain ⟨lines, hp⟩ := exists_phase_of_hasFinished hf
  simp only [close, hp]

/-- With any other the lines that are left are lost. -/
theorem exists_close_eq_discard (h : (inTime && w.hasFinished) = false) :
    ∃ how, w.close inTime = w.discard how := by
  cases inTime with
  | false => exact ⟨.aborted, rfl⟩
  | true =>
      rw [Bool.true_and, hasFinished] at h
      unfold close
      split at h
      · cases h
      · next hn =>
          split
          · next hp => exact absurd hp (hn _)
          · exact ⟨_, rfl⟩
          · exact ⟨_, rfl⟩

theorem refused_close (w : Writer) (inTime : Bool) :
    (w.close inTime).queue.refused = w.queue.refused := by
  cases h : inTime && w.hasFinished with
  | true => rw [close_eq_self h]
  | false =>
      obtain ⟨how, hc⟩ := exists_close_eq_discard h
      rw [hc]
      rfl

/-- To discard the lines that are left is to count each of them as dropped. -/
theorem counters_discard (how : Ending) (hi : w.inFlight = w.phase.unsettled.length) :
    (w.discard how).spool.counters =
      w.spool.counters.addDropped (.ofNat (w.phase.unsettled ++ w.queue.items).length) := by
  rw [List.length_append, ← hi]
  rfl

/-- To close a writer is to count the lines that are left as dropped. -/
theorem counters_close (hi : w.inFlight = w.phase.unsettled.length)
    (hn : (inTime && w.hasFinished) = true → w.phase.unsettled ++ w.queue.items = []) :
    (w.close inTime).spool.counters =
      w.spool.counters.addDropped (.ofNat (w.phase.unsettled ++ w.queue.items).length) := by
  cases h : inTime && w.hasFinished with
  | true =>
      rw [close_eq_self h, hn h]
      simp [Counters.addDropped]
  | false =>
      obtain ⟨how, hc⟩ := exists_close_eq_discard h
      rw [hc, counters_discard how hi]

end Close

/-- What has become of the lines of a writer `w` with which one has done, in time or not, so that
it is `w'`. -/
structure Cleared (tr : Trace) (w : Writer) (inTime : Bool) (w' : Writer) : Prop where
  inFlight  : w'.inFlight = 0
  /-- A writer that has finished in time stays as it is. -/
  finished  : (inTime && w.hasFinished) = true → w' = w ∧ FoundEmpty tr w'
  /-- Of any other the queue is emptied, and every line that was left is counted as dropped. -/
  discarded : (inTime && w.hasFinished) = false →
    w'.queue.items = [] ∧
      w'.spool.counters.written = w.spool.counters.written ∧
      w'.spool.counters.dropped =
        w.spool.counters.dropped + .ofNat (w.phase.unsettled ++ w.queue.items).length

namespace Balanced

variable {tr : Trace} {w : Writer}

theorem of_hasFinished (h : Balanced tr w) (hf : w.hasFinished = true) :
    w.phase.unsettled = [] ∧ FoundEmpty tr w := by
  obtain ⟨lines, hp⟩ := exists_phase_of_hasFinished hf
  obtain ⟨rfl, he⟩ := h.finished lines hp
  exact ⟨by rw [hp]; rfl, he⟩

/-- **When one has done with a writer no line is left over.** -/
theorem cleared (h : Balanced tr w) (inTime : Bool) : Cleared tr w inTime (w.close inTime) := by
  cases hq : inTime && w.hasFinished with
  | true =>
      obtain ⟨hu, he⟩ := h.of_hasFinished (Bool.and_eq_true_iff.mp hq).2
      rw [close_eq_self hq]
      exact ⟨by rw [h.inFlight, hu]; rfl, fun _ => ⟨rfl, he⟩, fun hn => absurd hq (by simp [hn])⟩
  | false =>
      obtain ⟨how, hc⟩ := exists_close_eq_discard hq
      have hk := counters_discard how h.inFlight
      rw [hc]
      exact ⟨rfl, fun hf => absurd hf (by simp [hq]),
        fun _ => ⟨rfl, by rw [hk]; rfl, by rw [hk]; rfl⟩⟩

end Balanced

/-- In these steps no events are handed in, only lines. -/
theorem Step.outcome? {plan : Plan} {w w' : Writer} {o : Occurrence} (h : Step plan w o w') :
    o.outcome? = none := by
  cases h with
  | work h => exact (work_of_step? h).inward.1
  | _ => rfl

end Writer

/-! ### On a clock -/

namespace Timeline

/-- What a writer does on its clock is a run of its steps. -/
theorem exists_run_writer {σ : Type} (s : Sink σ) (plan : Plan) (limit : Nat) (t : Timeline σ) :
    ∃ tr, Run (Writer.Step plan) t.writer tr (t.run s plan limit).writer := by
  obtain ⟨tr, run⟩ := run_of_works s plan limit t
  refine ⟨tr, run.map (·.writer) fun h => ?_⟩
  obtain ⟨st, hw, ho⟩ := h.exists_step?
  exact ho ▸ .work hw

end Timeline

namespace Writer

/-- **No line is lost from the books, and none is counted twice**, neither while the writer is at
work nor when one has done with it, be it at any moment or by a shutdown on a clock. -/
theorem lines_conserved {plan : Plan} {capacity : Nat} {tr : Trace} {w : Writer}
    (h : Run (Step plan) { spool := { queue := .new capacity } } tr w) :
    (InHand tr w.phase.unsettled ∧ w.inFlight = w.phase.unsettled.length ∧
      ∀ line rest failed, w.phase = .writing line rest failed → 0 < w.inFlight) ∧
    (w.spool.counters.written = .ofNat (tr.flatMap (·.taken)).length ∧
      w.spool.counters.dropped = .ofNat (tr.flatMap (·.givenUp)).length ∧
      (tr.flatMap (·.drained) = [] →
        .ofNat (tr.flatMap (·.accepted)).length =
          w.spool.counters.written + w.spool.counters.dropped +
            .ofNat w.inFlight + .ofNat w.queue.size)) ∧
    (∀ inTime : Bool, Cleared tr w inTime (w.close inTime)) ∧
    ∀ {σ : Type} (s : Sink σ) (t : Timeline σ) (grace : Nat), t.writer = w →
      let u := ({ t with writer := w.cancel }.run s plan (t.now + grace)).writer
      ∃ after : Trace,
        Run (Step plan) { spool := { queue := .new capacity } } (tr ++ .cancel :: after) u ∧
          Cleared (tr ++ .cancel :: after) u u.hasEnded (t.shutdown s plan grace).writer := by
  have hb : Balanced tr w := balanced_of_run (h.map id Step.lawful)
  have hw := hb.spool.tally.written
  have hd : w.spool.counters.dropped = .ofNat (tr.flatMap (·.givenUp)).length := by
    simpa [h.outcomes_eq_nil Step.outcome?] using hb.spool.tally.dropped
  refine ⟨⟨hb.inHand, hb.inFlight, fun line rest failed hp => ?_⟩, ⟨hw, hd, fun hn => ?_⟩,
    hb.cleared, fun s t grace ht => ?_⟩
  · rw [hb.inFlight, hp]
    exact Nat.succ_pos _
  · have ha := hb.length_accepted
    rw [hn] at ha
    rw [ha, hw, hd]
    simp [UInt64.ofNat_add]
  · -- the writer is told to end, works for as long as it may, and is closed
    obtain ⟨after, run⟩ := Timeline.exists_run_writer s plan (t.now + grace)
      { t with writer := t.writer.cancel }
    subst ht
    have whole := h.trans ((Run.one .cancel).trans run)
    exact ⟨after, whole, (balanced_of_run (whole.map id Step.lawful)).cleared _⟩

/-- A writer with one line in hand and another in the queue, which is stopped, or shut down while
the sink hangs: both lines are counted as dropped. -/
theorem lines_conserved_stopped :
    ∃ (plan : Plan) (tr : Trace) (w : Writer),
      Run (Step plan) { spool := { queue := .new 2 } } tr w ∧ w.inFlight = 1 ∧
        (let w' := w.close false
         w'.inFlight = 0 ∧ w'.queue.items = [] ∧ w'.spool.counters.dropped = 2) ∧
        (let t : Timeline Script := { writer := w, sink := { fallback := .hangs } }
         let w' := (t.shutdown .scripted plan 5).writer
         w'.inFlight = 0 ∧ w'.queue.items = [] ∧ w'.spool.counters.dropped = 2) := by
  let line : LogLine := { kind := .ping, client := "c1", time := ⟨0, 0⟩, text := "" }
  let plan : Plan :=
    { batchSize := 1, retry := fun _ => { maxAttempts := 1, delay? := fun _ => none } }
  have run : Run (Step plan) { spool := { queue := .new 2 } } _ _ :=
    .more (.more (.more (.more .start (.offer line)) (.offer line))
      (.work (s := .nothing) rfl)) (.work (s := .nothing) rfl)
  obtain ⟨⟨-, hi, -⟩, -, hclose, hshut⟩ := lines_conserved run
  obtain ⟨h₀, -, hd⟩ := hclose false
  obtain ⟨hq, -, hd⟩ := hd rfl
  obtain ⟨after, -, hs⟩ := hshut .scripted
    { writer := _, sink := { fallback := .hangs } } 5 rfl
  -- no answer comes, so the writer is where it was when the time is over
  rw [Timeline.run_of_step?_eq_none rfl] at hs
  obtain ⟨hs₀, -, hsd⟩ := hs
  obtain ⟨hsq, -, hsd⟩ := hsd rfl
  exact ⟨plan, _, _, run, hi, ⟨h₀, hq, hd⟩, hs₀, hsq, hsd⟩

end Writer

end PacketLog
