import PacketLog.Writer

/-!
# Proofs — Trace

What can be seen of a log at work, in the order in which it happens: events and what became of
them, lines that enter and leave the queue, and lines the sink has taken or the writer has given
up.  A `Run` is made of steps each of which shows one such occurrence; the kind of steps is a
parameter.

* `Counters.Tally.more`: counters that count what each occurrence shows (`Occurrence.count`) are
  the numbers of what the whole trace shows, counted modulo 2⁶⁴.
-/

namespace PacketLog

/-- One thing that can be seen to happen. -/
inductive Occurrence where
  /-- An event is handed in under a policy, and this becomes of it. -/
  | event (p : Policy) (e : Event) (d : Disposition)
  /-- A line is offered to the queue. -/
  | offer (line : LogLine) (accepted : Bool)
  /-- Someone other than the writer takes lines out of the queue. -/
  | drain (lines : List LogLine)
  /-- The writer takes a batch, which is empty if the queue is. -/
  | batch (lines : List LogLine)
  /-- The sink has taken a line. -/
  | written (line : LogLine)
  /-- The writer gives lines up. -/
  | lost (lines : List LogLine)
  /-- The writer is told to end. -/
  | cancel
  /-- Anything by which no line moves. -/
  | other

namespace Occurrence

/-- The event, if it is one. -/
def event? : Occurrence → Option Event
  | .event _ e _ => some e
  | _            => none

/-- What became of the event, if it is one. -/
def outcome? : Occurrence → Option Disposition
  | .event _ _ d => some d
  | _            => none

/-- The lines that enter the queue. -/
def accepted : Occurrence → List LogLine
  | .event p e .queued => (p.lineOf e.record).toList
  | .offer line true   => [line]
  | _                  => []

/-- How many lines the queue refuses. -/
def refused : Occurrence → Nat
  | .event _ _ .dropped => 1
  | .offer _ false      => 1
  | _                   => 0

/-- The lines that leave the queue, but not for the writer. -/
def drained : Occurrence → List LogLine
  | .drain lines => lines
  | _            => []

/-- The lines the writer takes in hand. -/
def batched : Occurrence → List LogLine
  | .batch lines => lines
  | _            => []

/-- The lines the sink takes. -/
def taken : Occurrence → List LogLine
  | .written line => [line]
  | _             => []

/-- The lines the writer gives up. -/
def givenUp : Occurrence → List LogLine
  | .lost lines => lines
  | _           => []

/-- The lines that leave the queue. -/
def removed (o : Occurrence) : List LogLine := o.drained ++ o.batched

/-- The lines the writer is done with, in one way or the other. -/
def settled (o : Occurrence) : List LogLine := o.taken ++ o.givenUp

theorem batched_of_ne {o : Occurrence} (h : ∀ ls, o ≠ .batch ls) : o.batched = [] := by
  cases o with
  | batch ls => exact absurd rfl (h ls)
  | _ => rfl

/-- What it adds to the counters. -/
def count (o : Occurrence) (c : Counters) : Counters :=
  match o with
  | .event _ _ .queued   => c.addSeen.addQueued
  | .event _ _ .filtered => c.addSeen.addFiltered
  | .event _ _ .dropped  => c.addSeen.addDropped 1
  | .written _           => c.addWritten
  | .lost lines          => c.addSinkError.addDropped (.ofNat lines.length)
  | _                    => c

end Occurrence

/-- What happened, in order. -/
abbrev Trace := List Occurrence

/-- What became of the events of a trace. -/
def Trace.outcomes (tr : Trace) : List Disposition := tr.flatMap (·.outcome?.toList)

@[simp] theorem Trace.outcomes_nil : outcomes [] = [] := rfl

@[simp] theorem Trace.outcomes_cons (o : Occurrence) (tr : Trace) :
    outcomes (o :: tr) = o.outcome?.toList ++ outcomes tr := rfl

@[simp] theorem Trace.outcomes_append (tr tr' : Trace) :
    outcomes (tr ++ tr') = outcomes tr ++ outcomes tr' :=
  List.flatMap_append

theorem Trace.not_mem_snoc {tr : Trace} {o x : Occurrence} (h : x ∉ tr) (ho : o ≠ x) :
    x ∉ tr ++ [o] := by
  intro hm
  rcases List.mem_append.mp hm with hm | hm
  · exact h hm
  · exact ho (List.mem_singleton.mp hm).symm

/-- Every event was queued, filtered or dropped. -/
theorem Trace.length_outcomes (tr : Trace) :
    (outcomes tr).length =
      (outcomes tr).count .filtered + (outcomes tr).count .queued +
        (outcomes tr).count .dropped := by
  induction outcomes tr with
  | nil => rfl
  | cons d ds ih => cases d <;> simp [ih] <;> omega

/-! ### Runs -/

/-- A run of steps of the kind `R`, with what it shows. -/
inductive Run {S : Type} (R : S → Occurrence → S → Prop) (s₀ : S) : Trace → S → Prop where
  | start : Run R s₀ [] s₀
  | more {tr : Trace} {o : Occurrence} {s s' : S}
      (run : Run R s₀ tr s) (step : R s o s') : Run R s₀ (tr ++ [o]) s'

namespace Run

variable {S T : Type} {R : S → Occurrence → S → Prop} {Q : T → Occurrence → T → Prop}

theorem one {s s' : S} {o : Occurrence} (h : R s o s') : Run R s [o] s' := .more .start h

theorem trans {s s₁ s' : S} {tr tr' : Trace} (h₁ : Run R s tr s₁) (h₂ : Run R s₁ tr' s') :
    Run R s (tr ++ tr') s' := by
  induction h₂ with
  | start => rwa [List.append_nil]
  | more _ step ih => exact List.append_assoc .. ▸ .more ih step

/-- In steps by which no event is handed in nothing becomes of any event. -/
theorem outcomes_eq_nil {s₀ s : S} {tr : Trace} (hR : ∀ {s o s'}, R s o s' → o.outcome? = none)
    (h : Run R s₀ tr s) : tr.outcomes = [] := by
  induction h with
  | start => rfl
  | more _ step ih => simp [ih, hR step]

/-- A run, seen through a view of the state that turns every step into one of another kind. -/
theorem map {s₀ s : S} {tr : Trace} (f : S → T)
    (hf : ∀ {s o s'}, R s o s' → Q (f s) o (f s')) (h : Run R s₀ tr s) :
    Run Q (f s₀) tr (f s) := by
  induction h with
  | start => exact .start
  | more _ step ih => exact .more ih (hf step)

end Run

/-! ### Counting -/

/-- The counters are the numbers of what the trace shows, modulo 2⁶⁴. -/
structure Counters.Tally (tr : Trace) (c : Counters) : Prop where
  seen     : c.seen = .ofNat (Trace.outcomes tr).length
  filtered : c.filtered = .ofNat ((Trace.outcomes tr).count .filtered)
  queued   : c.queued = .ofNat ((Trace.outcomes tr).count .queued)
  written  : c.written = .ofNat (tr.flatMap (·.taken)).length
  dropped  : c.dropped =
    .ofNat ((Trace.outcomes tr).count .dropped + (tr.flatMap (·.givenUp)).length)

namespace Occurrence

variable (o : Occurrence) (c : Counters)

theorem seen_count : (o.count c).seen = c.seen + .ofNat o.outcome?.toList.length := by
  rcases o with ⟨_, _, _ | _ | _⟩ | _ | _ | _ | _ | _ | _ | _ <;> simp [count, outcome?] <;> rfl

theorem filtered_count :
    (o.count c).filtered = c.filtered + .ofNat (o.outcome?.toList.count .filtered) := by
  rcases o with ⟨_, _, _ | _ | _⟩ | _ | _ | _ | _ | _ | _ | _ <;> simp [count, outcome?] <;> rfl

theorem queued_count :
    (o.count c).queued = c.queued + .ofNat (o.outcome?.toList.count .queued) := by
  rcases o with ⟨_, _, _ | _ | _⟩ | _ | _ | _ | _ | _ | _ | _ <;> simp [count, outcome?] <;> rfl

theorem written_count : (o.count c).written = c.written + .ofNat o.taken.length := by
  rcases o with ⟨_, _, _ | _ | _⟩ | _ | _ | _ | _ | _ | _ | _ <;> simp [count, taken] <;> rfl

theorem dropped_count :
    (o.count c).dropped =
      c.dropped + .ofNat (o.outcome?.toList.count .dropped + o.givenUp.length) := by
  rcases o with ⟨_, _, _ | _ | _⟩ | _ | _ | _ | _ | _ | _ | _ <;>
    simp [count, outcome?, givenUp] <;> rfl

end Occurrence

namespace Counters.Tally

theorem start : Tally [] {} := ⟨rfl, rfl, rfl, rfl, rfl⟩

/-- Counters that count one more occurrence are the numbers of what the longer trace shows. -/
theorem more {tr : Trace} {c : Counters} (h : Tally tr c) (o : Occurrence) :
    Tally (tr ++ [o]) (o.count c) where
  seen     := by simp [o.seen_count, h.seen]
  filtered := by simp [o.filtered_count, h.filtered]
  queued   := by simp [o.queued_count, h.queued]
  written  := by simp [o.written_count, h.written]
  dropped  := by
    rw [o.dropped_count, h.dropped, ← UInt64.ofNat_add]
    simp [Nat.add_add_add_comm]

end Counters.Tally

end PacketLog
