import PacketLog.Config.Resolve
import PacketLog.Record

/-!
# Policy

What is logged, and how, at one moment.  A policy never changes; a new one takes its place.

`Policy.keep?` decides on a record.  A record is dropped when the log is off, when its kind is off
in its direction, when its topic is denied, or when it has filters and all of them are denied.
What is left is cut to the payload limit and freed of what the policy withholds.
-/

namespace PacketLog

/-- What is logged, and how. -/
structure Policy where
  version    : UInt64
  enabled    : Bool
  kinds      : KindFlags
  topics     : Topic.Rules
  /-- Payloads are shown. -/
  showsPayload : Bool
  /-- The most bytes of a payload that are shown. -/
  payloadLimit : Nat
  redacts    : Redaction → Bool
  format     : LineFormat
  verbose    : Bool

namespace Policy

/-- The policy of a configuration. -/
def ofSettings (version : UInt64) (s : Config.PolicySettings) : Policy where
  version      := version
  enabled      := s.enabled
  kinds        := s.kinds
  topics       := s.topics
  showsPayload := s.payload.shown
  payloadLimit := min s.payload.maxBytes captureLimit
  redacts      := s.redacts
  format       := s.format
  verbose      := s.verbose

/-- What stands in the place of a text that is withheld. -/
def redactedText : String := "[REDACTED]"

/-- A text withheld if `hide`, its presence staying visible. -/
def mask (hide : Bool) (text : Option String) : Option String :=
  if hide then text.map fun _ => redactedText else text

/-- The text withheld if `hide`. -/
def maskText (hide : Bool) (text : String) : String := if hide then redactedText else text

/-- No byte of a payload is shown. -/
def hidesPayload (p : Policy) : Bool := !p.showsPayload || p.redacts .payload

/-- The details with what the policy withholds taken out. -/
def redactDetails (p : Policy) : Details → Details
  | .connect d =>
    .connect { d with
      will := d.will.map fun w => { w with topic := maskText (p.redacts .topic) w.topic } }
  | .connack d =>
    .connack { d with assignedClient := mask (p.redacts .clientId) d.assignedClient }
  | .publish d =>
    .publish { d with
      responseTopic   := mask (p.redacts .topic) d.responseTopic
      correlationData := if p.hidesPayload then none else d.correlationData }
  | .subscribe d  => .subscribe d
  | .disconnect d => .disconnect d

/-- The record with its payload cut and with what the policy withholds taken out. -/
def redact (p : Policy) (r : Record) : Record :=
  { r with
    client        := maskText (p.redacts .clientId) r.client
    topic         := mask (p.redacts .topic) r.topic
    subscriptions := r.subscriptions.map fun s =>
      { s with filter := maskText (p.redacts .topic) s.filter }
    payload       := if p.hidesPayload then none else r.payload.map (List.take p.payloadLimit)
    truncated     :=
      if p.hidesPayload then false
      else r.truncated || (r.payload.map fun b => decide (p.payloadLimit < b.length)).getD false
    reason        := mask (p.redacts .reasonString) r.reason
    properties    := if p.redacts .userProperties then [] else r.properties
    details       := r.details.map p.redactDetails }

/-- The policy admits the topic of the record, if it has one. -/
def allowsTopic (p : Policy) (r : Record) : Bool :=
  match r.topic with
  | some t => p.topics.allows t
  | none   => true

/-- The filters of a record that the policy admits. -/
def admitted (p : Policy) (r : Record) : List Subscription :=
  r.subscriptions.filter fun s => p.topics.allows s.filter

/-- The policy admits no packet of this kind and direction. -/
def rejects (p : Policy) (kind : PacketKind) (dir : Direction) : Bool :=
  !p.enabled || !p.kinds.allows kind dir

/-- What is logged of a record, if anything. -/
def keep? (p : Policy) (r : Record) : Option Record :=
  if p.rejects r.kind r.direction then none
  else if !p.allowsTopic r then none
  else if !r.subscriptions.isEmpty && (p.admitted r).isEmpty then none
  else some (p.redact { r with subscriptions := p.admitted r })

end Policy

/-- The policy in force.  Its version counts the policies there have been. -/
structure PolicyStore where
  current : Policy

namespace PolicyStore

/-- A store whose first policy is that of a configuration. -/
def new (s : Config.PolicySettings := {}) : PolicyStore := ⟨.ofSettings 1 s⟩

/-- Install the policy of a configuration. -/
def replace (store : PolicyStore) (s : Config.PolicySettings) : PolicyStore :=
  ⟨.ofSettings (store.current.version + 1) s⟩

/-- Install the policy of a configuration, unless it was refused. -/
def reload (store : PolicyStore) (loaded : Except Config.ConfigError Config.Settings) :
    Except Config.ConfigError Unit × PolicyStore :=
  match loaded with
  | .ok settings => (.ok (), store.replace settings.policy)
  | .error e     => (.error e, store)

end PolicyStore

end PacketLog
