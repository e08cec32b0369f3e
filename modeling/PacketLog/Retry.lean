import PacketLog.Backoff
import PacketLog.Pause
import PacketLog.Sink

/-!
# Retry

When a failed write is repeated.  A permanent failure never is; a transient one is, until as many
calls have been made as are allowed.  `Retry.decide` is the decision after one call and
`Retry.run` a whole series of calls on a clock that counts milliseconds.

A `Retry` is for one series.  Where waits are varied at random, another series has other waits.
-/

namespace PacketLog

/-- When the failed calls of a series are repeated. -/
structure Retry where
  /-- The most calls that are made, of which there is always one. -/
  maxAttempts : UInt32
  /-- The wait in nanoseconds before a repetition, counted from zero. -/
  delay?      : UInt32 → Option Nat

/-- When a schedule repeats the calls of a series, where `draw n` is the random number drawn for
repetition `n`. -/
def Backoff.retry {α : Type} (ar : Arithmetic α) (b : Backoff α) (draw : UInt32 → α) : Retry where
  maxAttempts := b.maxAttempts
  delay? n    := b.delay? ar (draw n) n

/-- What follows a call. -/
inductive Decision where
  | done
  /-- The failure is final. -/
  | giveUp (e : SinkError)
  /-- The call is repeated after so many nanoseconds. -/
  | repeatAfter (nanos : Nat)
  /-- There is no going on. -/
  | breakDown
deriving DecidableEq, Repr

namespace Retry

/-- What follows a call, when `failed` calls have failed before it. -/
def decide (r : Retry) (failed : Nat) : Reply → Decision
  | .ok       => .done
  | .broke    => .breakDown
  | .failed e =>
    if !e.isTransient || r.maxAttempts.toNat ≤ failed + 1 then .giveUp e
    else
      match r.delay? (UInt32.ofNat failed) with
      | some nanos => .repeatAfter nanos
      | none       => .breakDown

/-- When the pause before a repetition is over. -/
def wake (now nanos : Nat) : Nat := Pause.finish now (Pause.ofNanos nanos)

/-- A series of calls that came to an end. -/
structure Series where
  /-- When each call was made. -/
  calls  : List Nat
  /-- The waits the schedule has between the calls, in nanoseconds. -/
  waits  : List Nat
  /-- When the last call ended. -/
  finish : Nat
  /-- The failure of the last call, if it failed. -/
  error? : Option SinkError
deriving DecidableEq, Repr

theorem lt_of_decide_eq_repeatAfter {r : Retry} {failed nanos : Nat} {reply : Reply}
    (h : r.decide failed reply = .repeatAfter nanos) : failed + 1 < r.maxAttempts.toNat := by
  unfold decide at h
  split at h
  · simp at h
  · simp at h
  · split at h
    · simp at h
    · rename_i hn
      simp only [Bool.or_eq_true, decide_eq_true_eq, not_or] at hn
      omega

/-- Make calls until one of them is the last, where `outcome i` is the outcome of call `i`, counted
from zero, and `failed` calls have failed before.  There is no end if a call hangs or breaks
down. -/
def run (r : Retry) (outcome : Nat → Outcome) (now : Nat) (failed : Nat := 0) : Option Series :=
  match (outcome failed).answer? now with
  | none            => none
  | some (t, reply) =>
    match h : r.decide failed reply with
    | .done              => some { calls := [now], waits := [], finish := t, error? := none }
    | .giveUp e          => some { calls := [now], waits := [], finish := t, error? := some e }
    | .breakDown         => none
    | .repeatAfter nanos =>
      (run r outcome (wake t nanos) (failed + 1)).map fun s =>
        { s with calls := now :: s.calls, waits := nanos :: s.waits }
termination_by r.maxAttempts.toNat - failed
decreasing_by
  have := lt_of_decide_eq_repeatAfter h
  omega

end Retry

end PacketLog
