import PacketLog.Topic.Pattern

/-!
# Topic — Rules

An ordered list of filters with a verdict each.  The first filter that selects a topic decides on
it, and a default decides on the topics that none selects.
-/

namespace PacketLog.Topic

/-- Whether a topic is logged. -/
inductive Verdict where
  | allow
  | deny
deriving DecidableEq, Repr, Inhabited

/-- The word for a verdict. -/
def Verdict.name : Verdict → String
  | .allow => "allow"
  | .deny  => "deny"

/-- A filter and the verdict on the topics it selects. -/
structure Rule where
  pattern : Pattern
  verdict : Verdict
deriving DecidableEq, Repr

/-- Rules in order, and the verdict on the topics they leave open. -/
structure Rules where
  rules    : List Rule := []
  fallback : Verdict := .allow
deriving DecidableEq, Repr

namespace Rules

/-- The verdict of the first rule that selects the topic. -/
def judge (rs : Rules) (topic : String) : Verdict :=
  match rs.rules.find? (·.pattern.selects topic) with
  | some r => r.verdict
  | none   => rs.fallback

/-- The topic is logged. -/
def allows (rs : Rules) (topic : String) : Bool := rs.judge topic = .allow

end Rules

end PacketLog.Topic
