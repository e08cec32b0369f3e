import PacketLog.Config.Layer

/-!
# Config — Settings

A complete configuration, in which every setting has a value.  The defaults of the structures are
the values of settings that no source mentions.
-/

namespace PacketLog

/-- A field that can be withheld from the log. -/
inductive Redaction where
  | clientId
  | topic
  | payload
  | reasonString
  | userProperties
deriving DecidableEq, Repr

namespace Redaction

/-- Every field that can be withheld, in the order in which they are listed. -/
def all : List Redaction := [.clientId, .topic, .payload, .reasonString, .userProperties]

/-- The name of a field in a document. -/
def name : Redaction → String
  | .clientId       => "client_id"
  | .topic          => "topic"
  | .payload        => "payload"
  | .reasonString   => "reason_string"
  | .userProperties => "user_properties"

/-- The field of this name. -/
def ofName? (s : String) : Option Redaction := all.find? (·.name = s)

end Redaction

end PacketLog

namespace PacketLog.Config

/-- How much of a payload is shown. -/
structure PayloadSettings where
  shown    : Bool := true
  maxBytes : Nat := 4096
deriving DecidableEq, Repr

/-- What is logged, and how. -/
structure PolicySettings where
  enabled : Bool := true
  verbose : Bool := false
  format  : LineFormat := .text
  kinds   : KindFlags := .uniform true
  topics  : Topic.Rules := {}
  payload : PayloadSettings := {}
  redacts : Redaction → Bool := fun _ => false

/-- Sizes of queue and batches, retries, and the time a shutdown may take.  Times are in
milliseconds. -/
structure PipelineSettings where
  queueCapacity : Nat := 10000
  batchSize     : Nat := 256
  maxAttempts   : Nat := 3
  baseDelay     : Nat := 50
  maxDelay      : Nat := 2000
  jitter        : Bool := true
  grace         : Nat := 5000
deriving DecidableEq, Repr

/-- Where lines go. -/
inductive SinkSettings where
  | tracing
  | file (path : String)
deriving DecidableEq, Repr

/-- A complete configuration. -/
structure Settings where
  policy   : PolicySettings := {}
  pipeline : PipelineSettings := {}
  sink     : SinkSettings := .tracing

/-- The place of the configuration document below the home directory. -/
def documentPath : String := "conf/config.toml"

/-- The beginning of the names of the environment variables that are read. -/
def variablePrefix : String := "MQLOG"

end PacketLog.Config
