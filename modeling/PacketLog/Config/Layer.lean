import PacketLog.Config.Schema
import PacketLog.KindFlags
import PacketLog.Toml.Document
import PacketLog.Topic.Rules

/-!
# Config — Layer

What one source of configuration says.  Every setting is optional; a setting that is absent leaves
the decision to the sources below.  `Layer.overlaid` puts one layer on top of another: setting by
setting, the table of kinds name by name, and the two lists as wholes.

`Layer.ofDocument` reads a layer from a document.
-/

namespace PacketLog

/-- How lines are rendered. -/
inductive LineFormat where
  | text
  | json
deriving DecidableEq, Repr, Inhabited

/-- The name of a rendering in a document. -/
def LineFormat.name : LineFormat → String
  | .text => "text"
  | .json => "json"

/-- The rendering of this name, in letters of either case. -/
def LineFormat.ofName? (s : String) : Option LineFormat :=
  if Text.lowered s = "text" then some .text
  else if Text.lowered s = "json" then some .json
  else none

end PacketLog

namespace PacketLog.Config

open Topic (Verdict)

/-- The kinds of sink a document can name. -/
inductive SinkKind where
  | tracing
  | file
deriving DecidableEq, Repr, Inhabited

/-- A topic rule as it is written. -/
structure RuleLayer where
  pattern : String
  verdict : Verdict
deriving DecidableEq, Repr

/-- The settings on topics. -/
structure TopicsLayer where
  fallback : Option Verdict := none
  rules    : Option (List RuleLayer) := none
deriving DecidableEq, Repr

/-- The settings on payloads. -/
structure PayloadLayer where
  include? : Option Bool := none
  maxBytes : Option Int := none
deriving DecidableEq, Repr

/-- Toggles by the names they are written under, in ascending order of the names. -/
abbrev KindTable := List (String × KindToggle)

/-- The settings on what is logged. -/
structure PolicyLayer where
  enabled : Option Bool := none
  verbose : Option Bool := none
  format  : Option LineFormat := none
  redact  : Option (List String) := none
  payload : Option PayloadLayer := none
  kinds   : Option KindTable := none
  topics  : Option TopicsLayer := none
deriving DecidableEq, Repr

/-- The settings on queue, writer and retries; times are in milliseconds. -/
structure PipelineLayer where
  queueCapacity : Option Nat := none
  batchSize     : Option Nat := none
  maxAttempts   : Option Nat := none
  baseDelay     : Option Nat := none
  maxDelay      : Option Nat := none
  jitter        : Option Bool := none
  grace         : Option Nat := none
deriving DecidableEq, Repr

/-- The settings on where lines go. -/
structure SinkLayer where
  kind : Option SinkKind := none
  path : Option String := none
deriving DecidableEq, Repr

/-- What one source of configuration says. -/
structure Layer where
  policy   : Option PolicyLayer := none
  pipeline : Option PipelineLayer := none
  sink     : Option SinkLayer := none
deriving DecidableEq, Repr

/-! ### The table of kinds -/

namespace KindTable

/-- The table with a toggle under a name, in its place. -/
def insert (name : String) (toggle : KindToggle) : KindTable → KindTable
  | []          => [(name, toggle)]
  | (n, t) :: r =>
    if name < n then (name, toggle) :: (n, t) :: r
    else if name = n then (name, toggle) :: r
    else (n, t) :: insert name toggle r

/-- The table with all of `upper` entered. -/
def insertAll (lower upper : KindTable) : KindTable :=
  upper.foldl (fun t e => t.insert e.1 e.2) lower

/-- The table of a list of entries, the last of a name counting. -/
def ofList (es : List (String × KindToggle)) : KindTable := insertAll [] es

end KindTable

/-! ### One layer over another -/

/-- Put a section on top of another, either of which may be missing. -/
def overlay {α : Type} (join : α → α → α) : Option α → Option α → Option α
  | some lower, some upper => some (join lower upper)
  | lower, none            => lower
  | none, some upper       => some upper

/-- `upper` on top of `lower`. -/
def TopicsLayer.overlaid (lower upper : TopicsLayer) : TopicsLayer where
  fallback := upper.fallback.or lower.fallback
  rules    := upper.rules.or lower.rules

/-- `upper` on top of `lower`. -/
def PayloadLayer.overlaid (lower upper : PayloadLayer) : PayloadLayer where
  include? := upper.include?.or lower.include?
  maxBytes := upper.maxBytes.or lower.maxBytes

/-- `upper` on top of `lower`. -/
def PolicyLayer.overlaid (lower upper : PolicyLayer) : PolicyLayer where
  enabled := upper.enabled.or lower.enabled
  verbose := upper.verbose.or lower.verbose
  format  := upper.format.or lower.format
  redact  := upper.redact.or lower.redact
  payload := overlay .overlaid lower.payload upper.payload
  kinds   := overlay .insertAll lower.kinds upper.kinds
  topics  := overlay .overlaid lower.topics upper.topics

/-- `upper` on top of `lower`. -/
def PipelineLayer.overlaid (lower upper : PipelineLayer) : PipelineLayer where
  queueCapacity := upper.queueCapacity.or lower.queueCapacity
  batchSize     := upper.batchSize.or lower.batchSize
  maxAttempts   := upper.maxAttempts.or lower.maxAttempts
  baseDelay     := upper.baseDelay.or lower.baseDelay
  maxDelay      := upper.maxDelay.or lower.maxDelay
  jitter        := upper.jitter.or lower.jitter
  grace         := upper.grace.or lower.grace

/-- `upper` on top of `lower`. -/
def SinkLayer.overlaid (lower upper : SinkLayer) : SinkLayer where
  kind := upper.kind.or lower.kind
  path := upper.path.or lower.path

/-- `upper` on top of `lower`. -/
def Layer.overlaid (lower upper : Layer) : Layer where
  policy   := overlay .overlaid lower.policy upper.policy
  pipeline := overlay .overlaid lower.pipeline upper.pipeline
  sink     := overlay .overlaid lower.sink upper.sink

/-! ### Reading a layer -/

namespace Decoder

/-- The kinds of packets, by their names in capitals. -/
def packetKind : Decoder PacketKind := choice (PacketKind.all.map fun k => (k.name, k))

/-- The directions, by their full names. -/
def direction : Decoder Direction :=
  choice ([.inbound, .outbound].map fun (d : Direction) => (d.name, d))

/-- The verdicts. -/
def verdict : Decoder Verdict := choice ([.allow, .deny].map fun (v : Verdict) => (v.name, v))

/-- The renderings. -/
def lineFormat : Decoder LineFormat :=
  choice ([.text, .json].map fun (f : LineFormat) => (f.name, f))

/-- The kinds of sink. -/
def sinkKind : Decoder SinkKind := choice [("tracing", .tracing), ("file", .file)]

/-- The settings of a toggle for each direction. -/
def directionToggle : Decoder (Option Bool × Option Bool) :=
  Record.decode
    { type := "DirectionToggle"
      fields := [
        .optional "inbound" flag fun b r => (some b, r.2),
        .optional "outbound" flag fun b r => (r.1, some b)]
      needed := 2 }
    (none, none)

/-- A toggle: a truth value for both directions, or a record with one for each. -/
def kindToggle : Decoder KindToggle := fun _ d =>
  match flag .value d with
  | .ok b    => .ok (.both b)
  | .error _ =>
    match directionToggle .value d with
    | .ok (i, o) => .ok (.perDirection i o)
    | .error _   => .error (.noForm "KindToggle")

/-- A topic rule.  Both of its fields must be there. -/
def rule : Decoder RuleLayer := fun dialect d => do
  let (pattern?, verdict?) ←
    Record.decode
      { type := "TopicRuleLayer"
        fields := [
          .required "pattern" (text) fun s (r : Option String × Option Verdict) => (some s, r.2),
          .required "verdict" verdict fun v r => (r.1, some v)]
        needed := 2 }
      (none, none) dialect d
  match pattern?, verdict? with
  | some pattern, some verdict => .ok { pattern, verdict }
  | none, _                    => .error (.missingField "pattern")
  | _, none                    => .error (.missingField "verdict")

/-- The settings on topics. -/
def topics : Decoder TopicsLayer :=
  Record.decode
    { type := "TopicsConfigLayer"
      fields := [
        .optional "default" verdict fun v r => { r with fallback := some v },
        .optional "rules" (list rule) fun rs r => { r with rules := some rs }] }
    {}

/-- The settings on payloads. -/
def payload : Decoder PayloadLayer :=
  Record.decode
    { type := "PayloadConfigLayer"
      fields := [
        .optional "include" flag fun b r => { r with include? := some b },
        .optional "max_bytes" (integer Int64.minValue.toInt Int64.maxValue.toInt "i64")
          fun n r => { r with maxBytes := some n }] }
    {}

/-- The settings on what is logged. -/
def policy : Decoder PolicyLayer :=
  Record.decode
    { type := "PolicyConfigLayer"
      fields := [
        .optional "enabled" flag fun b r => { r with enabled := some b },
        .optional "verbose" flag fun b r => { r with verbose := some b },
        .optional "format" lineFormat fun f r => { r with format := some f },
        .optional "redact" (list (text)) fun ns r => { r with redact := some ns },
        .optional "payload" payload fun p r => { r with payload := some p },
        .optional "kinds" (named kindToggle) fun es r => { r with kinds := some (.ofList es) },
        .optional "topics" topics fun t r => { r with topics := some t }] }
    {}

/-- The settings on queue, writer and retries. -/
def pipeline : Decoder PipelineLayer :=
  Record.decode
    { type := "PipelineConfigLayer"
      fields := [
        .optional "queue_capacity" (natural 64 "usize")
          fun n r => { r with queueCapacity := some n },
        .optional "batch_size" (natural 64 "usize") fun n r => { r with batchSize := some n },
        .optional "retry_max_attempts" (natural 32 "u32")
          fun n r => { r with maxAttempts := some n },
        .optional "retry_base_delay_ms" (natural 64 "u64")
          fun n r => { r with baseDelay := some n },
        .optional "retry_max_delay_ms" (natural 64 "u64")
          fun n r => { r with maxDelay := some n },
        .optional "retry_jitter" flag fun b r => { r with jitter := some b },
        .optional "shutdown_grace_ms" (natural 64 "u64")
          fun n r => { r with grace := some n }] }
    {}

/-- The settings on where lines go. -/
def sink : Decoder SinkLayer :=
  Record.decode
    { type := "SinkConfigLayer"
      fields := [
        .optional "type" sinkKind fun k r => { r with kind := some k },
        .optional "path" (text "path string") fun p r => { r with path := some p }] }
    {}

/-- A whole layer. -/
def layer : Decoder Layer :=
  Record.decode
    { type := "MessageLogConfigLayer"
      fields := [
        .optional "policy" policy fun p r => { r with policy := some p },
        .optional "pipeline" pipeline fun p r => { r with pipeline := some p },
        .optional "sink" sink fun s r => { r with sink := some s }] }
    {}

end Decoder

/-- The layer a document describes. -/
def Layer.ofDocument (document : String) : Except Fault Layer :=
  match Toml.read? document with
  | none    => .error .unworded
  | some es => Decoder.layer .document (.table es)

end PacketLog.Config
