import PacketLog.Line

/-!
# Sink

Where lines are written.  A sink is a state with two operations, to write a line and to flush what
has been written.  What an operation does is an outcome: it answers, at once or after a while, or
never does.  The answer may be that it has succeeded, that it has failed, or that it broke down.
-/

namespace PacketLog

/-- Why a line could not be written. -/
inductive SinkError where
  /-- It may work another time. -/
  | transient (cause : String)
  | permanent (cause : String)
deriving DecidableEq, Repr

namespace SinkError

/-- The failure may pass. -/
def isTransient : SinkError → Bool
  | .transient _ => true
  | .permanent _ => false

/-- The wording. -/
def message : SinkError → String
  | .transient cause => s!"transient error: {cause}"
  | .permanent cause => s!"permanent error: {cause}"

end SinkError

/-- The answer of a sink. -/
inductive Reply where
  | ok
  | failed (e : SinkError)
  /-- The operation broke down and takes the writer with it. -/
  | broke
deriving DecidableEq, Repr

/-- What an operation of a sink does. -/
inductive Outcome where
  /-- It answers after so many milliseconds. -/
  | replies (r : Reply) (delay : Nat := 0)
  | hangs
deriving DecidableEq, Repr

/-- When an operation begun at `now` answers, and what. -/
def Outcome.answer? (now : Nat) : Outcome → Option (Nat × Reply)
  | .replies r delay => some (now + delay, r)
  | .hangs           => none

/-- A sink with states `σ`. -/
structure Sink (σ : Type) where
  name  : String
  write : σ → LogLine → Outcome × σ
  flush : σ → Outcome × σ

end PacketLog
