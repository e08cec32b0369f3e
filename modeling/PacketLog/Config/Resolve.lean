import PacketLog.Config.Error
import PacketLog.Config.Settings

/-!
# Config — Resolve

From a layer to a complete configuration: absent settings get their defaults, names and topic
filters are looked up and parsed, and numbers are checked.  The checks are made in a fixed order,
and the first that fails is reported: kinds in the order of their names, topic rules, the payload
limit, redactions, queue and writer, and the sink.
-/

namespace PacketLog.Config

/-- The flags a table of kinds describes, its entries being applied in order. -/
def resolveKinds (table : KindTable) (flags : KindFlags := .uniform true) :
    Except ConfigError KindFlags :=
  match table with
  | []             => .ok flags
  | (name, t) :: r =>
    match PacketKind.ofName? name with
    | some k => resolveKinds r (flags.apply k t)
    | none   => .error (.unknownKind name)

/-- The topic rules, the first of them having the number `index`. -/
def resolveRules (index : Nat) : List RuleLayer → Except ConfigError (List Topic.Rule)
  | []      => .ok []
  | r :: rs =>
    match Topic.Pattern.parse r.pattern with
    | .ok pattern    => do
      let rest ← resolveRules (index + 1) rs
      .ok ({ pattern, verdict := r.verdict } :: rest)
    | .error reason => .error (.badPattern index r.pattern reason)

/-- The fields to withhold, the first name having the number `index`. -/
def resolveRedactions (index : Nat) : List String → Except ConfigError (List Redaction)
  | []      => .ok []
  | n :: ns =>
    match Redaction.ofName? n with
    | some r => do
      let rest ← resolveRedactions (index + 1) ns
      .ok (r :: rest)
    | none   => .error (.unknownRedaction index n)

/-- The settings on topics. -/
def TopicsLayer.resolve (l : TopicsLayer) : Except ConfigError Topic.Rules := do
  let rules ← resolveRules 0 (l.rules.getD [])
  .ok { rules, fallback := l.fallback.getD .allow }

/-- The settings on payloads. -/
def PayloadLayer.resolve (l : PayloadLayer) : Except ConfigError PayloadSettings :=
  let defaults : PayloadSettings := {}
  match l.maxBytes with
  | none   => .ok { defaults with shown := l.include?.getD defaults.shown }
  | some n =>
    if n < 0 then .error (.negativeLimit n)
    else .ok { shown := l.include?.getD defaults.shown, maxBytes := n.toNat }

/-- The settings on what is logged. -/
def PolicyLayer.resolve (l : PolicyLayer) : Except ConfigError PolicySettings := do
  let kinds ← resolveKinds (l.kinds.getD [])
  let topics ← (l.topics.getD {}).resolve
  let payload ← (l.payload.getD {}).resolve
  let redactions ← resolveRedactions 0 (l.redact.getD [])
  let defaults : PolicySettings := {}
  .ok {
    enabled := l.enabled.getD defaults.enabled
    verbose := l.verbose.getD defaults.verbose
    format  := l.format.getD defaults.format
    kinds, topics, payload
    redacts := fun r => redactions.contains r }

/-- The settings with defaults in the place of absent ones, unchecked. -/
def PipelineLayer.withDefaults (l : PipelineLayer) : PipelineSettings :=
  let defaults : PipelineSettings := {}
  { queueCapacity := l.queueCapacity.getD defaults.queueCapacity
    batchSize     := l.batchSize.getD defaults.batchSize
    maxAttempts   := l.maxAttempts.getD defaults.maxAttempts
    baseDelay     := l.baseDelay.getD defaults.baseDelay
    maxDelay      := l.maxDelay.getD defaults.maxDelay
    jitter        := l.jitter.getD defaults.jitter
    grace         := l.grace.getD defaults.grace }

/-- The settings on queue, writer and retries. -/
def PipelineLayer.resolve (l : PipelineLayer) : Except ConfigError PipelineSettings :=
  let s := l.withDefaults
  if s.queueCapacity = 0 then .error (.broken .positiveCapacity)
  else if s.batchSize = 0 then .error (.broken .positiveBatch)
  else if s.maxAttempts = 0 then .error (.broken .positiveAttempts)
  else if s.maxDelay < s.baseDelay then .error (.broken .orderedDelays)
  else .ok s

/-- The settings on where lines go. -/
def SinkLayer.resolve (l : SinkLayer) : Except ConfigError SinkSettings :=
  match l.kind.getD .tracing with
  | .tracing => .ok .tracing
  | .file    =>
    match l.path with
    | some path => if path = "" then .error (.broken .pathGiven) else .ok (.file path)
    | none      => .error (.broken .pathGiven)

/-- The complete configuration. -/
def Layer.resolve (l : Layer) : Except ConfigError Settings := do
  let policy ← (l.policy.getD {}).resolve
  let pipeline ← (l.pipeline.getD {}).resolve
  let sink ← (l.sink.getD {}).resolve
  .ok { policy, pipeline, sink }

/-- The configuration a document describes on its own. -/
def Settings.ofDocument (document : String) : Except ConfigError Settings :=
  match Layer.ofDocument document with
  | .ok layer    => layer.resolve
  | .error fault => .error (.badDocument fault)

end PacketLog.Config
