import PacketLog.Config.Schema
import PacketLog.Topic.Pattern

/-!
# Config — Error

Why a configuration is refused.  `field?` names the setting at fault, and `message?` is the
wording, where there is one.
-/

namespace PacketLog.Config

/-- The values an environment variable can be required to have. -/
inductive VariableType where
  | lineFormat
  | sinkKind
  | i64
  | usize
  | u32
  | u64
deriving DecidableEq, Repr

/-- Why a file could not be read. -/
inductive ReadFault where
  /-- It is no UTF-8. -/
  | notText
  | isDirectory
  /-- It may not be read. -/
  | denied
deriving DecidableEq, Repr

/-- A rule that a number or a path breaks. -/
inductive Constraint where
  | positiveCapacity
  | positiveBatch
  | positiveAttempts
  /-- The greatest delay is at least the first. -/
  | orderedDelays
  /-- A file sink has a path. -/
  | pathGiven
deriving DecidableEq, Repr

/-- Why a configuration is refused. -/
inductive ConfigError where
  | badVariable (name : String) (type : VariableType) (value : String)
  /-- A file is no document, or not one of the required form. -/
  | badFile (path : String) (fault : Fault)
  /-- A text is no document, or not one of the required form. -/
  | badDocument (fault : Fault)
  | unreadable (path : String) (fault : ReadFault)
  | unknownKind (name : String)
  | badPattern (index : Nat) (pattern : String) (reason : Topic.PatternError)
  | negativeLimit (value : Int)
  | unknownRedaction (index : Nat) (name : String)
  | broken (constraint : Constraint)
deriving DecidableEq

namespace VariableType

/-- What is wrong with a value that is not of the type. -/
def complaint (value : String) : VariableType → String
  | .lineFormat => s!"expected 'text' or 'json', got '{value}'"
  | .sinkKind   => s!"expected 'tracing' or 'file', got '{value}'"
  | .i64        => s!"invalid i64 value '{value}'"
  | .usize      => s!"invalid usize value '{value}'"
  | .u32        => s!"invalid u32 value '{value}'"
  | .u64        => s!"invalid u64 value '{value}'"

end VariableType

/-- The wording. -/
def ReadFault.message : ReadFault → String
  | .notText     => "stream did not contain valid UTF-8"
  | .isDirectory => "Is a directory (os error 21)"
  | .denied      => "Permission denied (os error 13)"

namespace Constraint

/-- The setting a rule is about. -/
def field : Constraint → String
  | .positiveCapacity => "pipeline.queue_capacity"
  | .positiveBatch    => "pipeline.batch_size"
  | .positiveAttempts => "pipeline.retry_max_attempts"
  | .orderedDelays    => "pipeline.retry_max_delay_ms"
  | .pathGiven        => "sink.path"

/-- What the rule demands. -/
def demand : Constraint → String
  | .positiveCapacity => "must be at least 1"
  | .positiveBatch    => "must be at least 1"
  | .positiveAttempts => "must be at least 1"
  | .orderedDelays    => "must not be smaller than retry_base_delay_ms"
  | .pathGiven        => "required for the file sink"

end Constraint

namespace ConfigError

/-- The setting at fault. -/
def field? : ConfigError → Option String
  | .badVariable name _ _   => some name
  | .badFile _ _            => none
  | .badDocument _          => none
  | .unreadable _ _         => none
  | .unknownKind name       => some s!"policy.kinds.{name}"
  | .badPattern i _ _       => some s!"policy.topics.rules[{i}].pattern"
  | .negativeLimit _        => some "policy.payload.max_bytes"
  | .unknownRedaction i _   => some s!"policy.redact[{i}]"
  | .broken c               => some c.field

/-- The wording.  Of what is wrong with a document only the complaint itself is given, and only if
it has a wording of its own. -/
def message? (e : ConfigError) : Option String :=
  let field := e.field?.getD ""
  match e with
  | .badVariable _ type v  => some s!"Invalid value for {field}: {type.complaint v}"
  | .badFile _ fault       => fault.message? .document
  | .badDocument fault     => fault.message? .document
  | .unreadable path fault => some s!"Failed to read config file {path}: {fault.message}"
  | .unknownKind name      => some s!"Unknown packet kind '{name}' in {field}"
  | .badPattern _ p reason =>
    some s!"Malformed topic pattern '{p}' in {field}: {reason.message}"
  | .negativeLimit v       => some s!"Negative value {v} for {field}"
  | .unknownRedaction _ n  => some s!"Unknown redaction field '{n}' in {field}"
  | .broken c              => some s!"Validation error in {field}: {c.demand}"

end ConfigError

end PacketLog.Config
