import PacketLog.Event

/-!
# Record

An event as the log sees it.  `Event.record` classifies: it finds the kind, drops qualities of
service that are none, keeps at most `captureLimit` bytes of the payload, and keeps details only if
they belong to the kind.  It never fails.
-/

namespace PacketLog

/-- A filter with the quality of service it asks for, if that is one. -/
structure Subscription where
  filter  : String
  qos     : Option QoS := none
  options : Option SubscriptionOptions := none
deriving DecidableEq

/-- An event as the log sees it. -/
structure Record where
  kind          : PacketKind
  code          : UInt8
  direction     : Direction
  /-- Empty as long as the client has no identifier. -/
  client        : String
  topic         : Option String
  subscriptions : List Subscription
  qos           : Option QoS
  retain        : Bool
  /-- The length of the whole payload, whatever of it is kept. -/
  payloadLength : Nat
  payload       : Option (List UInt8)
  /-- Part of the payload has been cut off. -/
  truncated     : Bool
  reasonCodes   : List UInt8
  reason        : Option String
  properties    : List (String × String)
  details       : Option Details
  time          : Instant
deriving DecidableEq

/-- The first reason code, which stands for all. -/
def Record.reasonCode (r : Record) : Option UInt8 := r.reasonCodes.head?

/-- The most bytes of a payload that are ever kept. -/
def captureLimit : Nat := 65536

/-- The filter as a record keeps it. -/
def Request.subscription (q : Request) : Subscription where
  filter  := q.filter
  qos     := q.qos.bind QoS.ofCode?
  options := q.options

/-- The event classified. -/
def Event.record (e : Event) : Record where
  kind          := PacketKind.ofCode e.code
  code          := e.code
  direction     := e.direction
  client        := e.client
  topic         := e.topic
  subscriptions := e.requests.map Request.subscription
  qos           := e.qos.bind QoS.ofCode?
  retain        := e.retain
  payloadLength := (e.payload.map List.length).getD 0
  payload       := e.payload.map (List.take captureLimit)
  truncated     := (e.payload.map fun p => decide (captureLimit < p.length)).getD false
  reasonCodes   := e.reasonCodes
  reason        := e.reason
  properties    := e.properties
  details       := e.details.filter fun d => d.kind = PacketKind.ofCode e.code
  time          := e.time

end PacketLog
