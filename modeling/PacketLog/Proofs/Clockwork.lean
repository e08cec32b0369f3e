import Mathlib.Data.List.Flatten
import PacketLog.Proofs.Conservation
import PacketLog.Proofs.Delivery

/-!
# Proofs — Clockwork

A writer with a clock and a sink, and others who act at any moment.

* `Timeline.run_of_run`, `Timeline.run_of_sleep`, `Timeline.run_of_shutdown`: all that the writer
  does on its clock is steps of this kind.
* `Timeline.lawful_of_step`: no such step lets a line appear or disappear.
* `Timeline.heard_of_run`: the lines the sink has taken are those the writer has counted, and one
  more at most, which the writer has in hand.
* `Timeline.inOrder_of_run`: the writer takes its batches out of the accepted lines one after the
  other, and the lines the sink has taken are some of those, in order and none of them twice.
-/

namespace PacketLog

/-- What others do to a writer at work. -/
inductive Writer.Aside (w : Writer) : Occurrence → Writer → Prop where
  | event (p : Policy) (e : Event) :
      Aside w (.event p e (w.spool.accept p e).1) { w with spool := (w.spool.accept p e).2 }
  | offer (line : LogLine) :
      Aside w (.offer line (w.queue.offer line).1) (w.withQueue (w.queue.offer line).2)
  /-- Someone else takes lines out of the queue. -/
  | drain (n : Nat) :
      Aside w (.drain (w.queue.take n).1) (w.withQueue (w.queue.take n).2)
  | cancel : Aside w .cancel w.cancel

namespace Writer.Aside

variable {w w' : Writer} {o : Occurrence}

theorem lawful (h : w.Aside o w') : Lawful w o w' := by
  cases h with
  | event p e => exact .outside (Spool.admission_accept w.spool p e).conserves rfl nofun
  | offer line => exact .offer w line
  | drain n => exact .drain w n
  | cancel => exact .cancel w

theorem phase (h : w.Aside o w') : w'.phase = w.phase := by
  cases h <;> rfl

/-- Others do not bring lines to the sink, nor take them in hand. -/
theorem taken_batched (h : w.Aside o w') : o.taken = [] ∧ o.batched = [] := by
  cases h with
  | offer line => cases (w.queue.offer line).1 <;> exact ⟨rfl, rfl⟩
  | _ => exact ⟨rfl, rfl⟩

end Writer.Aside

theorem Writer.Work.length_batched {plan : Plan} {w w' : Writer} {st : Stimulus} {o : Occurrence}
    (h : Work plan w st o w') : o.batched.length ≤ max plan.batchSize 1 := by
  cases h with
  | take hp hq =>
      rw [Occurrence.batched, ← hq]
      exact List.length_take_le _ _
  | _ => exact Nat.zero_le _

namespace Trace

/-- The batches, in order. -/
def batches (tr : Trace) : List (List LogLine) := (tr.map (·.batched)).filter (· ≠ [])

theorem flatten_batches (tr : Trace) : tr.batches.flatten = tr.flatMap (·.batched) :=
  List.flatten_filter_ne_nil

/-- If nobody else takes lines then what leaves the queue goes to the writer. -/
theorem removed_eq_batched {tr : Trace} (h : tr.flatMap (·.drained) = []) :
    tr.flatMap (·.removed) = tr.flatMap (·.batched) := by
  rw [List.flatMap_eq_nil_iff] at h
  exact List.flatMap_congr fun o ho => by rw [Occurrence.removed, h o ho, List.nil_append]

end Trace

namespace Timeline

open scoped List

variable {σ : Type} {s : Sink σ} {plan : Plan} {t t' : Timeline σ} {o : Occurrence} {tr : Trace}

/-! ### Steps -/

/-- A step of the writer, with its sink, or of those around it. -/
inductive Step (s : Sink σ) (plan : Plan) (t : Timeline σ) : Occurrence → Timeline σ → Prop where
  | work {limit : Nat} {t' : Timeline σ} (h : t.step? s plan limit = some t') :
      Step s plan t (t.shows plan) t'
  | aside {o : Occurrence} {w : Writer} (h : t.writer.Aside o w) :
      Step s plan t o { t with writer := w }
  /-- The writer is stopped, wherever it is. -/
  | abort (h : t.writer.hasEnded = false) :
      Step s plan t .other { t with writer := t.writer.stop .aborted, due := none }
  /-- Time passes. -/
  | pass (now : Nat) : Step s plan t .other { t with now }

/-- A step of the writer does not depend on how long it may take. -/
theorem step?_unique {l₁ l₂ : Nat} {t₁ t₂ : Timeline σ} (h₁ : t.step? s plan l₁ = some t₁)
    (h₂ : t.step? s plan l₂ = some t₂) : t₁ = t₂ := by
  obtain ⟨time, st, w, hn, -, hw, rfl⟩ := step?_eq_some_iff.mp h₁
  obtain ⟨_, _, _, hn', -, hw', rfl⟩ := step?_eq_some_iff.mp h₂
  rw [hn] at hn'
  cases hn'
  rw [hw] at hw'
  cases hw'
  rfl

theorem work_of_step? {limit : Nat} (h : t.step? s plan limit = some t') :
    ∃ st, t.writer.Work plan st (t.shows plan) t'.writer := by
  obtain ⟨time, st, w, hn, -, hw, rfl⟩ := step?_eq_some_iff.mp h
  rw [shows_of_next? hn, writer_follow]
  exact ⟨st, Writer.work_of_step? hw⟩

/-- **No step lets a line appear or disappear.** -/
theorem lawful_of_step (h : Step s plan t o t') : Writer.Lawful t.writer o t'.writer := by
  cases h with
  | work h =>
      obtain ⟨st, hw⟩ := work_of_step? h
      exact hw.lawful
  | aside h => exact h.lawful
  | abort h => exact Writer.lawful_stop nofun
  | pass now => exact .refl _

theorem run_of_run (s : Sink σ) (plan : Plan) (limit : Nat) (t : Timeline σ) :
    ∃ tr, Run (Step s plan) t tr (t.run s plan limit) := by
  obtain ⟨tr, run⟩ := run_of_works s plan limit t
  refine ⟨tr, run.map id fun h => ?_⟩
  exact h.shows ▸ .work h.step

/-- A pause is a run of such steps, too. -/
theorem run_of_sleep (s : Sink σ) (plan : Plan) (ms : Nat) (t : Timeline σ) :
    ∃ tr, Run (Step s plan) t tr (t.sleep s plan ms) := by
  obtain ⟨tr, h⟩ := run_of_run s plan (Pause.finish t.now ms) t
  exact ⟨_, h.more (.pass _)⟩

/-- To shut the writer down is to tell it to end, to let it go on, and to close it; no more calls
are made than on the way. -/
theorem run_of_shutdown (s : Sink σ) (plan : Plan) (grace : Nat) (t : Timeline σ) :
    ∃ tr t', Run (Step s plan) t tr t' ∧
      (t.shutdown s plan grace).writer = t'.writer.close t'.writer.hasEnded ∧
      (t.shutdown s plan grace).calls = t'.calls := by
  obtain ⟨tr, h⟩ := run_of_run s plan (t.now + grace) { t with writer := t.writer.cancel }
  exact ⟨_, _, (Run.one (.aside .cancel)).trans h, rfl, rfl⟩

theorem balanced_of_run {capacity : Nat} {sink : σ}
    (h : Run (Step s plan) { writer := { spool := { queue := .new capacity } }, sink } tr t) :
    Writer.Balanced tr t.writer :=
  Writer.balanced_of_run (h.map (·.writer) lawful_of_step)

/-! ### What the sink has taken -/

/-- The sink has taken these lines, and the writer has not heard of it, or never will. -/
inductive Unheard (t : Timeline σ) : List LogLine → Prop where
  | writing {line : LogLine} {rest : List LogLine} {failed now : Nat} {outcome : Outcome}
      (hp : t.writer.phase = .writing line rest failed)
      (hd : t.due = (outcome.answer? now).map fun (time, r) => (time, .reply r)) :
      Unheard t (if outcome.succeeds then [line] else [])
  | ended {how : Ending} {lines ls : List LogLine} (hp : t.writer.phase = .ended how lines)
      (hl : ls <+: lines) (h₁ : ls.length ≤ 1) : Unheard t ls
  | nothing (hp : ∀ line rest failed, t.writer.phase ≠ .writing line rest failed) : Unheard t []

namespace Unheard

variable {ls : List LogLine}

/-- The writer has those lines in hand. -/
theorem isPrefix (h : t.Unheard ls) : ls <+: t.writer.phase.unsettled := by
  cases h with
  | writing hp hd =>
      rw [hp]
      split
      · exact ⟨_, rfl⟩
      · exact List.nil_prefix
  | ended hp hl h₁ =>
      rw [hp]
      exact hl
  | nothing hp => exact List.nil_prefix

theorem length_le (h : t.Unheard ls) : ls.length ≤ 1 := by
  cases h with
  | writing hp hd => split <;> simp
  | ended hp hl h₁ => exact h₁
  | nothing hp => exact Nat.zero_le _

theorem congr (h : t.Unheard ls) (hp : t'.writer.phase = t.writer.phase) (hd : t'.due = t.due) :
    t'.Unheard ls := by
  cases h with
  | writing hp' hd' => exact .writing (hp.trans hp') (hd.trans hd')
  | ended hp' hl h₁ => exact .ended (hp.trans hp') hl h₁
  | nothing hp' => exact .nothing (hp ▸ hp')

/-- While no line is with the sink there is nothing to hear. -/
theorem eq_nil (h : t.Unheard ls)
    (hw : ∀ line rest failed, t.writer.phase ≠ .writing line rest failed)
    (he : t.writer.hasEnded = false) : ls = [] := by
  cases h with
  | writing hp hd => exact absurd hp (hw _ _ _)
  | ended hp hl h₁ =>
      rw [Writer.hasEnded_of_phase hp] at he
      cases he
  | nothing hp => rfl

/-- The answer to a write tells whether the sink has taken the line. -/
theorem eq_of_reply {line : LogLine} {rest : List LogLine} {failed time : Nat} {r : Reply}
    (h : t.Unheard ls) (hp : t.writer.phase = .writing line rest failed)
    (hn : t.next? = some (time, .reply r)) : ls = if r = .ok then [line] else [] := by
  rw [next?, hp] at hn
  cases h with
  | writing hp' hd =>
      rw [hp] at hp'
      cases hp'
      rw [show t.due = some (time, .reply r) from hn] at hd
      obtain ⟨⟨_, _⟩, ha, he⟩ := Option.map_eq_some_iff.mp hd.symm
      cases he
      rw [Outcome.succeeds_of_answer? ha]
      simp
  | ended hp' hl h₁ =>
      rw [hp] at hp'
      cases hp'
  | nothing hp' => exact absurd hp (hp' _ _ _)

/-- An answer that does not end the writes with a success says that the line was not taken. -/
theorem eq_nil_of_decide {line : LogLine} {rest : List LogLine} {r : Retry} {failed time : Nat}
    {reply : Reply} {d : Decision} (h : t.Unheard ls)
    (hp : t.writer.phase = .writing line rest failed) (hn : t.next? = some (time, .reply reply))
    (hr : r.decide failed reply = d) (hd : d ≠ .done) : ls = [] :=
  (h.eq_of_reply hp hn).trans (if_neg (Retry.ne_ok_of_decide hr hd))

/-- What the sink has taken the writer hears in its next step. -/
theorem eq_taken {st : Stimulus} {time : Nat} {w : Writer} (h : t.Unheard ls)
    (hn : t.next? = some (time, st)) (hw : t.writer.Work plan st o w) : o.taken = ls := by
  symm
  cases hw with
  | write hp => exact (h.eq_of_reply hp hn).trans (if_pos rfl)
  | giveUp hp hr => exact h.eq_nil_of_decide hp hn hr (by simp)
  | pause hp hr => exact h.eq_nil_of_decide hp hn hr (by simp)
  | breakWrite hp hr => exact h.eq_nil_of_decide hp hn hr (by simp)
  | notice hp | wake hp | rest hp | finish hp | take hp | resume hp | flush hp | breakFlush hp =>
      exact h.eq_nil (by simp [hp]) (by rw [Writer.hasEnded, hp])

end Unheard

section Follow

variable {w : Writer} {line : LogLine} {rest : List LogLine} {failed nanos : Nat}

theorem follow_writing (hp : w.phase = .writing line rest failed) :
    t.follow s w = { t with writer := w }.call (some line) (s.write t.sink line) := by
  simp only [follow, hp]
  rfl

theorem follow_flushing (hp : w.phase = .flushing) :
    t.follow s w = { t with writer := w }.call none (s.flush t.sink) := by
  simp only [follow, hp]
  rfl

theorem follow_waiting (hp : w.phase = .waiting line rest failed nanos) :
    t.follow s w =
      { t with writer := w, due := some (Retry.wake t.now nanos, .timer) } := by
  simp only [follow, hp]

theorem taken_call (line? : Option LogLine) (made : Outcome × σ) :
    Call.taken (t.call line? made).calls =
      Call.taken t.calls ++ if made.1.succeeds then line?.toList else [] := by
  rw [call, Call.taken_append, Call.taken_cons, Call.taken_nil, List.append_nil]

/-- When the writer changes, the sink takes no more than the line it is given. -/
theorem exists_unheard_follow (s : Sink σ) (t : Timeline σ) (w : Writer) :
    ∃ ls, Call.taken (t.follow s w).calls = Call.taken t.calls ++ ls ∧
      (t.follow s w).Unheard ls := by
  cases hp : w.phase with
  | writing line rest failed =>
      rw [follow_writing hp]
      exact ⟨_, taken_call _ _, .writing hp rfl⟩
  | flushing =>
      rw [follow_flushing hp]
      refine ⟨[], (taken_call _ _).trans (congrArg _ (ite_self _)), .nothing ?_⟩
      intro line rest failed hw
      rw [show w.phase = _ from hw] at hp
      cases hp
  | ended how lines =>
      simp only [follow, hp]
      exact ⟨[], (List.append_nil _).symm, .ended hp List.nil_prefix (Nat.zero_le _)⟩
  | idle | taking | waiting =>
      simp only [follow, hp]
      refine ⟨[], (List.append_nil _).symm, .nothing ?_⟩
      intro line rest failed hw
      rw [show w.phase = _ from hw] at hp
      cases hp

end Follow

/-- The lines the sink has taken are those the writer has counted as written, and those it has not
heard of. -/
def Heard (tr : Trace) (t : Timeline σ) : Prop :=
  ∃ ls, Call.taken t.calls = tr.flatMap (·.taken) ++ ls ∧ t.Unheard ls

theorem Heard.next (h : Heard tr t) (step : Step s plan t o t') : Heard (tr ++ [o]) t' := by
  obtain ⟨ls, hc, hu⟩ := h
  cases step with
  | work h =>
      obtain ⟨time, st, w, hn, -, hw, rfl⟩ := step?_eq_some_iff.mp h
      have ho := hu.eq_taken hn (Writer.work_of_step? hw)
      obtain ⟨ls', hf, hu'⟩ := exists_unheard_follow s { t with now := time } w
      refine ⟨ls', ?_, hu'⟩
      rw [hf, hc, ← ho, shows_of_next? hn]
      simp
  | aside h =>
      refine ⟨ls, ?_, hu.congr h.phase rfl⟩
      rw [hc]
      simp [h.taken_batched.1]
  | abort h =>
      refine ⟨ls, ?_, .ended rfl hu.isPrefix hu.length_le⟩
      rw [hc]
      simp [Occurrence.taken]
  | pass now =>
      refine ⟨ls, ?_, hu.congr rfl rfl⟩
      rw [hc]
      simp [Occurrence.taken]

theorem heard_of_run {capacity : Nat} {sink : σ}
    (h : Run (Step s plan) { writer := { spool := { queue := .new capacity } }, sink } tr t) :
    Heard tr t := by
  induction h with
  | start => exact ⟨[], rfl, .nothing nofun⟩
  | more _ step ih => exact ih.next step

/-! ### The order of lines -/

theorem length_batched_of_step (h : Step s plan t o t') :
    o.batched.length ≤ max plan.batchSize 1 := by
  cases h with
  | work h =>
      obtain ⟨st, hw⟩ := work_of_step? h
      exact hw.length_batched
  | aside h =>
      rw [h.taken_batched.2]
      exact Nat.zero_le _
  | abort h => exact Nat.zero_le _
  | pass now => exact Nat.zero_le _

theorem length_batched_of_run {t₀ : Timeline σ} (h : Run (Step s plan) t₀ tr t) :
    ∀ o ∈ tr, o.batched.length ≤ max plan.batchSize 1 := by
  induction h with
  | start => exact fun _ ho => absurd ho List.not_mem_nil
  | more _ step ih =>
      intro o ho
      rcases List.mem_append.mp ho with ho | ho
      · exact ih o ho
      · rw [List.mem_singleton.mp ho]
        exact length_batched_of_step step

/-- What one can say of lines and batches after any run. -/
structure InOrder (plan : Plan) (tr : Trace) (t : Timeline σ) : Prop where
  /-- The accepted lines leave the queue in blocks, each for the writer or for someone else. -/
  blocks : tr.flatMap (·.accepted) = tr.flatMap (·.removed) ++ t.writer.queue.items
  /-- If nobody else takes lines then the blocks are the batches. -/
  batches : tr.flatMap (·.drained) = [] →
    tr.flatMap (·.accepted) = tr.batches.flatten ++ t.writer.queue.items
  size : ∀ batch ∈ tr.batches, batch ≠ [] ∧ batch.length ≤ max plan.batchSize 1
  /-- The sink has taken some of the accepted lines, in order. -/
  taken : (Call.taken t.calls).Sublist (tr.flatMap (·.accepted))
  /-- It has taken none of them twice. -/
  once : ∀ line, (Call.taken t.calls).count line ≤ (tr.flatMap (·.accepted)).count line
  /-- The lines counted as written are those it has taken, or all but the last. -/
  counted : ∃ ls : List LogLine, Call.taken t.calls = tr.flatMap (·.taken) ++ ls ∧
    ls.length ≤ 1 ∧ ls <+: t.writer.phase.unsettled
  written : t.writer.spool.counters.written = .ofNat (tr.flatMap (·.taken)).length

theorem taken_sublist (hb : Writer.Balanced tr t.writer) (hh : Heard tr t) :
    (Call.taken t.calls).Sublist (tr.flatMap (·.accepted)) := by
  obtain ⟨ls, hc, hu⟩ := hh
  calc Call.taken t.calls
      = tr.flatMap (·.taken) ++ ls := hc
    _ <+ tr.flatMap (·.settled) ++ t.writer.phase.unsettled :=
        List.Sublist.append (.flatMap_right _ fun _ _ => List.sublist_append_left _ _)
          hu.isPrefix.sublist
    _ = tr.flatMap (·.batched) := hb.hands.symm
    _ <+ tr.flatMap (·.removed) :=
        .flatMap_right _ fun _ _ => List.sublist_append_right _ _
    _ <+ tr.flatMap (·.removed) ++ t.writer.spool.queue.items := List.sublist_append_left _ _
    _ = tr.flatMap (·.accepted) := hb.spool.items.symm

/-- **Lines leave the queue in batches and reach the sink in order**, whatever the sink answers and
whatever others do. -/
theorem inOrder_of_run {capacity : Nat} {sink : σ}
    (h : Run (Step s plan) { writer := { spool := { queue := .new capacity } }, sink } tr t) :
    InOrder plan tr t := by
  have hb := balanced_of_run h
  have hh := heard_of_run h
  have ht := taken_sublist hb hh
  obtain ⟨ls, hc, hu⟩ := hh
  exact {
    blocks := hb.spool.items
    batches := fun hd => by
      rw [Trace.flatten_batches, ← Trace.removed_eq_batched hd]
      exact hb.spool.items
    size := fun batch hm => by
      obtain ⟨hm, hn⟩ := List.mem_filter.mp hm
      obtain ⟨o, ho, rfl⟩ := List.mem_map.mp hm
      exact ⟨by simpa using hn, length_batched_of_run h o ho⟩
    taken := ht
    once := fun line => ht.count_le line
    counted := ⟨ls, hc, hu.length_le, hu.isPrefix⟩
    written := hb.spool.tally.written }

end Timeline

end PacketLog
