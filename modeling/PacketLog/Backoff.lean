import PacketLog.Binary64
import PacketLog.Config.Settings

/-!
# Backoff

How long to wait before a call is repeated.  The wait grows by a constant factor with each
repetition, up to a limit, and may be varied at random.

The schedule is written once for any kind of numbers (`Arithmetic`).  What runs uses double
precision.  There the number of the repetition is read as a signed one of thirty-two bits, so that
repetitions from 2³¹ on have negative exponents; a power is found by repeated squaring, and that
of a negative exponent as the reciprocal; and a time is rounded to the nearest nanosecond, a tie
to the even one.
-/

namespace PacketLog

/-- The numbers a schedule is computed with. -/
structure Arithmetic (α : Type) where
  /-- Nanoseconds as seconds. -/
  seconds  : Nat → α
  mul      : α → α → α
  power    : α → Int32 → α
  least    : α → α → α
  /-- The factor of a random variation, from a number between zero and one. -/
  vary     : α → α
  /-- Seconds as nanoseconds, unless there is no such time. -/
  nanos?   : α → Option Nat

/-- When calls are repeated.  Times are in nanoseconds. -/
structure Backoff (α : Type) where
  maxAttempts : UInt32
  baseDelay   : Nat
  maxDelay    : Nat
  factor      : α
  jitter      : Bool

namespace Backoff

variable {α : Type}

/-- The wait before repetition number `n`, counted from zero, given a number drawn between zero
and one.  A time below zero is none. -/
def delay? (ar : Arithmetic α) (b : Backoff α) (draw : α) (n : UInt32) : Option Nat :=
  let limit := ar.seconds b.maxDelay
  let grown := ar.mul (ar.seconds b.baseDelay) (ar.power b.factor n.toInt32)
  let capped := ar.least grown limit
  ar.nanos? (if b.jitter then ar.least (ar.mul capped (ar.vary draw)) limit else capped)

/-- The number of nanoseconds in a millisecond. -/
def nanosPerMilli : Nat := 1000000

/-- The schedule of a configuration, which doubles each wait. -/
def ofSettings (two : α) (s : Config.PipelineSettings) : Backoff α where
  maxAttempts := max (UInt32.ofNat s.maxAttempts) 1
  baseDelay   := s.baseDelay * nanosPerMilli
  maxDelay    := s.maxDelay * nanosPerMilli
  factor      := two
  jitter      := s.jitter

end Backoff

/-! ### Double precision -/

namespace Arithmetic.Double

/-- Whole seconds and the rest, each converted and then added. -/
def seconds (nanos : Nat) : Float :=
  Float.ofNat (nanos / 1000000000) + Float.ofNat (nanos % 1000000000) / 1000000000

/-- The product of `acc` and the power, by repeated squaring. -/
def natPower (acc base : Float) (n : Nat) : Float :=
  let acc := if n % 2 = 1 then acc * base else acc
  if h : n / 2 = 0 then acc
  else natPower acc (base * base) (n / 2)
termination_by n
decreasing_by omega

/-- The power with a signed exponent. -/
def power (base : Float) (n : Int32) : Float :=
  let p := natPower 1 base n.toInt.natAbs
  if n < 0 then 1 / p else p

/-- The lesser of two numbers, or the only one of them. -/
def least (a b : Float) : Float :=
  if a.isNaN then b else if b.isNaN then a else if a < b then a else b

/-- The nearest number of nanoseconds.  There is none for what is negative, infinite or no
number, nor for 2⁶⁴ seconds and more. -/
def nanos? (x : Float) : Option Nat :=
  if x < 0 then none
  else
    match Binary64.ofBits x.toBits with
    | .finite _ significand exponent =>
      if 12 ≤ exponent then none
      else
        let (num, den) := Binary64.scaleDown 2 significand 1 (-exponent)
        some (roundDiv .even (num * 1000000000) den)
    | _ => none

end Arithmetic.Double

/-- The numbers of double precision. -/
def Arithmetic.double : Arithmetic Float where
  seconds := Double.seconds
  mul     := (· * ·)
  power   := Double.power
  least   := Double.least
  vary    := (0.5 + ·)
  nanos?  := Double.nanos?

end PacketLog
