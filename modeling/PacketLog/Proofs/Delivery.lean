import PacketLog.Proofs.Attempts
import PacketLog.Timeline

/-!
# Proofs — Delivery

What becomes of lines that are brought to a sink one after the other, each with its own retries,
told without the writer.

* `Sink.deliver`: the lines are brought to the sink up to the first that is not taken in the end.
* `Sink.taken_of_deliver`: the sink takes the lines before that one, in order.
* `Sink.line?_of_deliver`: it sees each line as often as the series of its writes says, and no line
  after the first that is not taken.
-/

namespace PacketLog

/-! ### Calls -/

namespace Call

/-- The lines that the sink has taken, in order. -/
def taken (calls : List Call) : List LogLine :=
  (calls.filter (·.outcome.succeeds)).filterMap (·.line?)

@[simp] theorem taken_nil : taken [] = [] := rfl

theorem taken_cons (c : Call) (cs : List Call) :
    taken (c :: cs) = (if c.outcome.succeeds then c.line?.toList else []) ++ taken cs := by
  cases hs : c.outcome.succeeds <;> cases hl : c.line? <;> simp [taken, hs, hl]

@[simp] theorem taken_append (cs cs' : List Call) : taken (cs ++ cs') = taken cs ++ taken cs' := by
  simp [taken]

end Call

/-! ### One line -/

namespace Sink

variable {σ : Type} (s : Sink σ) (line : LogLine) (st : σ)

/-- The state after the line has been written so many times. -/
def after : Nat → σ
  | 0     => st
  | n + 1 => (s.write (after n) line).2

/-- What comes of the line being written, time after time. -/
def outcomes (i : Nat) : Outcome := (s.write (s.after line st i) line).1

/-- The calls by which the line is written at these times, where it has been written `i` times
before. -/
def callsFrom (i : Nat) : List Nat → List Call
  | []            => []
  | time :: times => ⟨time, some line, s.outcomes line st i⟩ :: callsFrom (i + 1) times

theorem line?_callsFrom (i : Nat) (times : List Nat) :
    (s.callsFrom line st i times).map (·.line?) = List.replicate times.length (some line) := by
  induction times generalizing i with
  | nil => rfl
  | cons time times ih => rw [callsFrom, List.map_cons, ih, List.length_cons, List.replicate_succ]

/-- In a series of writes the line is taken once if the series does not end in an error, and never
if it does. -/
theorem taken_callsFrom {r : Retry} {now failed : Nat} {series : Retry.Series}
    (h : r.run (s.outcomes line st) now failed = some series) :
    Call.taken (s.callsFrom line st failed series.calls) =
      if series.error?.isSome then [] else [line] := by
  fun_induction Retry.run r (s.outcomes line st) now failed generalizing series with
  | case1 => cases h
  | case2 now failed t reply ha hd =>
      cases h
      have hr : reply = .ok := Retry.decide_eq_done_iff.mp hd
      rw [callsFrom, callsFrom, Call.taken_cons, Outcome.succeeds_of_answer? ha, hr]
      rfl
  | case3 now failed t reply ha e hd =>
      cases h
      have hr : reply ≠ .ok := Retry.ne_ok_of_decide hd (by simp)
      rw [callsFrom, callsFrom, Call.taken_cons, Outcome.succeeds_of_answer? ha]
      simp [hr]
  | case4 => cases h
  | case5 now failed t reply ha nanos hd ih =>
      obtain ⟨later, hl, rfl⟩ := Option.map_eq_some_iff.mp h
      have hr : reply ≠ .ok := Retry.ne_ok_of_decide hd (by simp)
      rw [callsFrom, Call.taken_cons, Outcome.succeeds_of_answer? ha, ih hl]
      simp [hr]

end Sink

/-! ### Line after line -/

/-- What has come of lines that were brought to a sink one after the other. -/
structure Delivery (σ : Type) where
  /-- How each line that was brought to the sink was written. -/
  series : List Retry.Series := []
  calls  : List Call := []
  sink   : σ
  finish : Nat

namespace Delivery

variable {σ : Type} (d : Delivery σ)

/-- How many lines there are before the first whose writes ended in an error. -/
def written : Nat := d.series.findIdx (·.error?.isSome)

/-- What has come of a line and then of those after it. -/
def after (first : Delivery σ) : Delivery σ :=
  { d with series := first.series ++ d.series, calls := first.calls ++ d.calls }

end Delivery

namespace Sink

variable {σ : Type} (s : Sink σ) (retry : Nat → Retry)

/-- Write one line. -/
def deliverOne (line : LogLine) (st : σ) (series : Retry.Series) : Delivery σ where
  series := [series]
  calls  := s.callsFrom line st 0 series.calls
  sink   := s.after line st series.calls.length
  finish := series.finish

/-- Bring lines to the sink, the first of which is line `n` there, up to the first whose writes end
in an error.  There is no end if a call hangs or breaks down. -/
def deliver (n : Nat) : List LogLine → σ → Nat → Option (Delivery σ)
  | [], st, now           => some { sink := st, finish := now }
  | line :: rest, st, now =>
    match (retry n).run (s.outcomes line st) now with
    | none        => none
    | some series =>
      let first := s.deliverOne line st series
      match series.error? with
      | some _ => some first
      | none   => (deliver (n + 1) rest first.sink first.finish).map (·.after first)

variable {s retry} {n : Nat} {line : LogLine} {lines : List LogLine} {st : σ} {now : Nat}
  {series : Retry.Series} {d : Delivery σ}

theorem written_deliverOne (he : series.error?.isSome = true) :
    (s.deliverOne line st series).written = 0 := by
  simp [deliverOne, Delivery.written, List.findIdx_cons, he]

theorem written_after_deliverOne (he : series.error? = none) :
    (d.after (s.deliverOne line st series)).written = d.written + 1 := by
  simp [deliverOne, Delivery.after, Delivery.written, List.findIdx_cons, he]

/-- What is proved of lines one after the other, up to the first that is not taken. -/
theorem deliver_induction {P : Nat → List LogLine → σ → Nat → Delivery σ → Prop}
    (nil : ∀ n st now, P n [] st now { sink := st, finish := now })
    (fails : ∀ n line rest st now series, (retry n).run (s.outcomes line st) now = some series →
      series.error?.isSome = true → P n (line :: rest) st now (s.deliverOne line st series))
    (takes : ∀ n line rest st now series d, (retry n).run (s.outcomes line st) now = some series →
      series.error? = none →
      s.deliver retry (n + 1) rest (s.deliverOne line st series).sink series.finish = some d →
      P (n + 1) rest (s.deliverOne line st series).sink series.finish d →
      P n (line :: rest) st now (d.after (s.deliverOne line st series)))
    (h : s.deliver retry n lines st now = some d) : P n lines st now d := by
  fun_induction deliver s retry n lines st now generalizing d with
  | case1 n st now =>
      cases h
      exact nil n st now
  | case2 => cases h
  | case3 n line rest st now series hr first e =>
      rename_i he
      cases h
      exact fails n line rest st now series hr (by rw [he]; rfl)
  | case4 n line rest st now series hr first he =>
      rename_i ih
      obtain ⟨d, hd, rfl⟩ := Option.map_eq_some_iff.mp h
      exact takes n line rest st now series d hr he hd (ih hd)

/-- There is an end if no call hangs or breaks down. -/
theorem exists_deliver (hs : ∀ st line, (s.write st line).1.answers = true)
    (hd : ∀ n i, ((retry n).delay? i).isSome = true) (n : Nat) (lines : List LogLine) (st : σ)
    (now : Nat) : ∃ d, s.deliver retry n lines st now = some d := by
  induction lines generalizing n st now with
  | nil => exact ⟨_, rfl⟩
  | cons line rest ih =>
      obtain ⟨series, hr⟩ : ∃ series, (retry n).run (s.outcomes line st) now = some series :=
        Retry.exists_run (fun i => hs _ _) (hd n) now
      cases he : series.error? with
      | some e => exact ⟨_, by simp only [deliver, hr, he]; rfl⟩
      | none =>
          obtain ⟨d, hd⟩ := ih (n + 1) (s.after line st series.calls.length) series.finish
          exact ⟨d.after (s.deliverOne line st series), by
            simp only [deliver, hr, he]
            exact Option.map_eq_some_iff.mpr ⟨d, hd, rfl⟩⟩

theorem le_finish_of_deliver (h : s.deliver retry n lines st now = some d) : now ≤ d.finish := by
  refine deliver_induction (P := fun _ _ _ now d => now ≤ d.finish) ?nil ?fails ?takes h
  case nil => exact fun _ _ now => Nat.le_refl now
  case fails => exact fun _ _ _ _ _ _ hr _ => Retry.le_finish_of_run hr
  case takes => exact fun _ _ _ _ _ _ _ hr _ _ ih => Nat.le_trans (Retry.le_finish_of_run hr) ih

theorem length_series_of_deliver (h : s.deliver retry n lines st now = some d) :
    d.series.length = min (d.written + 1) lines.length := by
  refine deliver_induction
    (P := fun _ lines _ _ d => d.series.length = min (d.written + 1) lines.length)
    ?nil ?fails ?takes h
  case nil => exact fun _ _ _ => rfl
  case fails =>
    intro n line rest st now series _ he
    rw [written_deliverOne he, List.length_cons]
    simp [deliverOne]
  case takes =>
    intro n line rest st now series d _ he _ ih
    rw [written_after_deliverOne he, List.length_cons, Nat.add_min_add_right, ← ih]
    rfl

theorem written_le_of_deliver (h : s.deliver retry n lines st now = some d) :
    d.written ≤ lines.length := by
  have hk : d.written ≤ d.series.length := List.findIdx_le_length
  have hl := length_series_of_deliver h
  omega

/-- **The sink takes the lines before the first whose writes end in an error**, in order. -/
theorem taken_of_deliver (h : s.deliver retry n lines st now = some d) :
    Call.taken d.calls = lines.take d.written := by
  refine deliver_induction (P := fun _ lines _ _ d => Call.taken d.calls = lines.take d.written)
    ?nil ?fails ?takes h
  case nil => exact fun _ _ _ => rfl
  case fails =>
    intro n line rest st now series hr he
    rw [written_deliverOne he, List.take_zero]
    exact (s.taken_callsFrom line st hr).trans (if_pos he)
  case takes =>
    intro n line rest st now series d hr he _ ih
    have ht := s.taken_callsFrom line st hr
    rw [he] at ht
    rw [written_after_deliverOne he, List.take_succ_cons, ← ih]
    exact (Call.taken_append _ _).trans (congrArg (· ++ _) ht)

/-- The sink sees each line as often as its series of writes says, and no line after the first
whose writes end in an error. -/
theorem line?_of_deliver (h : s.deliver retry n lines st now = some d) :
    d.calls.map (·.line?) =
      (lines.zip d.series).flatMap fun (line, series) =>
        List.replicate series.calls.length (some line) := by
  refine deliver_induction
    (P := fun _ lines _ _ d => d.calls.map (·.line?) =
      (lines.zip d.series).flatMap fun (line, series) =>
        List.replicate series.calls.length (some line))
    ?nil ?fails ?takes h
  case nil => exact fun _ _ _ => rfl
  case fails =>
    intro n line rest st now series hr he
    simp [deliverOne, line?_callsFrom]
  case takes =>
    intro n line rest st now series d hr he _ ih
    simp [deliverOne, Delivery.after, line?_callsFrom, ih]

end Sink

end PacketLog
