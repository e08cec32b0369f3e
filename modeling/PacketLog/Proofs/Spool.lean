import Mathlib.Algebra.GroupWithZero.Nat
import PacketLog.Proofs.Trace

/-!
# Proofs — Spool

What a spool does with an event, and what it keeps of its lines.

* `Spool.admission_accept`: an event is filtered exactly if it has no line, and otherwise its line
  is put at the end of the queue or refused, as there is room or not.  The event that is turned
  away unclassified is no exception.
* `Spool.Balanced.more`: if every step conserves lines (`Spool.Conserves`), then the lines that
  were ever accepted are, in order, those that have left the queue and those still in it.
-/

namespace PacketLog

/-- An event that is turned away unclassified would have had no line. -/
theorem Policy.lineOf_of_rejects {p : Policy} {e : Event}
    (h : p.rejects (.ofCode e.code) e.direction = true) : p.lineOf e.record = none := by
  simp [Policy.lineOf, Policy.keep?, Event.record, h]

theorem Policy.lineOf_eq_none_iff {p : Policy} {r : Record} :
    p.lineOf r = none ↔ p.keep? r = none :=
  Option.map_eq_none_iff

namespace Spool

/-- What may become of an event that is handed in under the policy `p`. -/
inductive Admission (s : Spool) (p : Policy) (e : Event) : Disposition → Spool → Prop where
  | filtered (h : p.lineOf e.record = none) :
      Admission s p e .filtered { s with counters := s.counters.addSeen.addFiltered }
  | queued {line : LogLine} (h : p.lineOf e.record = some line)
      (room : s.queue.size < s.queue.capacity) :
      Admission s p e .queued {
        queue    := { s.queue with items := s.queue.items ++ [line], permit := true }
        counters := s.counters.addSeen.addQueued }
  | dropped {line : LogLine} (h : p.lineOf e.record = some line)
      (full : s.queue.capacity ≤ s.queue.size) :
      Admission s p e .dropped {
        queue    := { s.queue with refused := s.queue.refused + 1 }
        counters := s.counters.addSeen.addDropped 1 }

/-- **What becomes of an event.** -/
theorem admission_accept (s : Spool) (p : Policy) (e : Event) :
    Admission s p e (s.accept p e).1 (s.accept p e).2 := by
  unfold accept
  by_cases hr : p.rejects (.ofCode e.code) e.direction
  · rw [if_pos hr]
    exact .filtered (Policy.lineOf_of_rejects hr)
  · rw [if_neg hr]
    cases hl : p.lineOf e.record with
    | none => exact .filtered hl
    | some line =>
        simp only [enqueue]
        cases hf : s.queue.isFull with
        | true =>
            rw [Queue.offer_of_full line hf]
            exact .dropped hl (Queue.isFull_iff.mp hf)
        | false =>
            rw [Queue.offer_of_room line hf]
            refine .queued hl (Nat.lt_of_not_le fun h => ?_)
            rw [Queue.isFull_iff.mpr h] at hf
            cases hf

namespace Admission

variable {s s' : Spool} {p : Policy} {e : Event} {d : Disposition}

theorem filtered_iff (h : Admission s p e d s') : d = .filtered ↔ p.keep? e.record = none := by
  rw [← Policy.lineOf_eq_none_iff]
  cases h with
  | filtered h => simp [h]
  | queued h room => simp [h]
  | dropped h full => simp [h]

theorem of_none (h : Admission s p e d s') (hk : p.keep? e.record = none) :
    s'.queue = s.queue := by
  have hd := h.filtered_iff.mpr hk
  subst hd
  cases h
  rfl

/-- An event that becomes a record is queued at the end, as its line, if there is room for it. -/
theorem of_room {r : Record} (h : Admission s p e d s') (hk : p.keep? e.record = some r)
    (room : s.queue.size < s.queue.capacity) :
    d = .queued ∧ s'.queue.items = s.queue.items ++ [r.line p.format p.verbose] := by
  have hl : p.lineOf e.record = some (r.line p.format p.verbose) := by simp [Policy.lineOf, hk]
  cases h with
  | filtered h => simp [hl] at h
  | queued h _ =>
      rw [hl] at h
      cases h
      exact ⟨rfl, rfl⟩
  | dropped _ full => omega

theorem of_full {r : Record} (h : Admission s p e d s') (hk : p.keep? e.record = some r)
    (full : s.queue.capacity ≤ s.queue.size) :
    d = .dropped ∧ s'.queue.items = s.queue.items := by
  cases h with
  | filtered h => simp [Policy.lineOf_eq_none_iff, hk] at h
  | queued _ room => omega
  | dropped _ _ => exact ⟨rfl, rfl⟩

theorem capacity (h : Admission s p e d s') : s'.queue.capacity = s.queue.capacity := by
  cases h <;> rfl

end Admission

/-! ### Conservation -/

/-- No line appears or disappears: what enters and leaves the queue is shown, and so is what is
counted. -/
structure Conserves (s : Spool) (o : Occurrence) (s' : Spool) : Prop where
  items    : o.removed ++ s'.queue.items = s.queue.items ++ o.accepted
  counters : s'.counters = o.count s.counters
  refused  : s'.queue.refused = s.queue.refused + .ofNat o.refused

/-- A step by which no line enters or leaves the queue. -/
theorem Conserves.still {s s' : Spool} {o : Occurrence} (hi : s'.queue.items = s.queue.items)
    (hr : s'.queue.refused = s.queue.refused) (hc : s'.counters = o.count s.counters)
    (ho : o.removed = [] ∧ o.accepted = [] ∧ o.refused = 0) : Conserves s o s' where
  items    := by simp [ho, hi]
  counters := hc
  refused  := by simp [ho, hr]

theorem conserves_other (s : Spool) : Conserves s .other s :=
  .still rfl rfl rfl ⟨rfl, rfl, rfl⟩

theorem Admission.conserves {s s' : Spool} {p : Policy} {e : Event} {d : Disposition}
    (h : Admission s p e d s') : Conserves s (.event p e d) s' := by
  cases h with
  | filtered h => exact .still rfl rfl rfl ⟨rfl, rfl, rfl⟩
  | queued h room =>
      exact ⟨by simp [Occurrence.removed, Occurrence.drained, Occurrence.batched,
        Occurrence.accepted, h], rfl, (UInt64.add_zero _).symm⟩
  | dropped h full => exact ⟨(List.append_nil _).symm, rfl, rfl⟩

theorem conserves_offer (s : Spool) (line : LogLine) :
    Conserves s (.offer line (s.queue.offer line).1)
      { s with queue := (s.queue.offer line).2 } := by
  cases hf : s.queue.isFull with
  | true =>
      rw [Queue.offer_of_full line hf]
      exact ⟨(List.append_nil _).symm, rfl, rfl⟩
  | false =>
      rw [Queue.offer_of_room line hf]
      exact ⟨rfl, rfl, (UInt64.add_zero _).symm⟩

theorem conserves_take {s : Spool} {o : Occurrence} {n : Nat}
    (h : o = .drain (s.queue.take n).1 ∨ o = .batch (s.queue.take n).1) :
    Conserves s o { s with queue := (s.queue.take n).2 } := by
  rcases h with rfl | rfl <;>
    exact ⟨by simp [Occurrence.removed, Occurrence.drained, Occurrence.batched,
      Occurrence.accepted, Queue.items_take], rfl, (UInt64.add_zero _).symm⟩

/-- What a spool that was empty holds and has counted, after what a trace shows. -/
structure Balanced (tr : Trace) (s : Spool) : Prop where
  items   : tr.flatMap (·.accepted) = tr.flatMap (·.removed) ++ s.queue.items
  tally   : s.counters.Tally tr
  refused : s.queue.refused = .ofNat (tr.map (·.refused)).sum

theorem Balanced.start (capacity : Nat) : Balanced [] { queue := .new capacity } :=
  ⟨rfl, .start, rfl⟩

theorem Balanced.more {tr : Trace} {o : Occurrence} {s s' : Spool} (h : Balanced tr s)
    (step : Conserves s o s') : Balanced (tr ++ [o]) s' where
  items := by
    calc (tr ++ [o]).flatMap (·.accepted)
        = tr.flatMap (·.removed) ++ (s.queue.items ++ o.accepted) := by simp [h.items]
      _ = tr.flatMap (·.removed) ++ (o.removed ++ s'.queue.items) := by rw [step.items]
      _ = (tr ++ [o]).flatMap (·.removed) ++ s'.queue.items := by simp
  tally := step.counters ▸ h.tally.more o
  refused := by simp [step.refused, h.refused]

/-- **The books of a spool are balanced after every run that conserves lines.** -/
theorem balanced_of_run {capacity : Nat} {tr : Trace} {s : Spool}
    (h : Run Conserves { queue := .new capacity } tr s) : Balanced tr s := by
  induction h with
  | start => exact .start capacity
  | more _ step ih => exact ih.more step

end Spool

/-! ### Events alone -/

/-- Lines enter the queue, and are refused by it, by events only. -/
structure Trace.ByEvents (tr : Trace) : Prop where
  accepted : (tr.flatMap (·.accepted)).length = tr.outcomes.count .queued
  refused  : (tr.map (·.refused)).sum = tr.outcomes.count .dropped

namespace Trace.ByEvents

theorem nil : ByEvents [] := ⟨rfl, rfl⟩

theorem append {tr tr' : Trace} (h : ByEvents tr) (h' : ByEvents tr') : ByEvents (tr ++ tr') where
  accepted := by simp [h.accepted, h'.accepted]
  refused  := by simp [h.refused, h'.refused]

theorem of_admission {s s' : Spool} {p : Policy} {e : Event} {d : Disposition}
    (h : s.Admission p e d s') : ByEvents [.event p e d] := by
  cases h with
  | filtered h => exact ⟨rfl, rfl⟩
  | queued h room => exact ⟨by simp [Occurrence.accepted, h]; rfl, rfl⟩
  | dropped h full => exact ⟨rfl, rfl⟩

/-- Where no event is handed in no line enters the queue. -/
theorem accepted_eq_nil {tr : Trace} (h : ByEvents tr) (hn : tr.outcomes = []) :
    tr.flatMap (·.accepted) = [] := by
  have ha := h.accepted
  rw [hn, List.count_nil] at ha
  exact List.eq_nil_of_length_eq_zero ha

end Trace.ByEvents

end PacketLog
