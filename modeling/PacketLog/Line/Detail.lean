import PacketLog.Record

/-!
# Line — Detail

What a line says of the details of a packet: named values in a fixed order.  A terse line shows only
those that identify a session.  Both forms of a line have the same details.
-/

namespace PacketLog.Line

/-- A value of the details without parts. -/
inductive Scalar where
  | absent
  | flag (b : Bool)
  | number (n : Nat)
  | text (s : String)
  | bytes (bs : List UInt8)
deriving DecidableEq, Repr

/-- A value of the details. -/
inductive DetailValue where
  | scalar (s : Scalar)
  | list (ss : List Scalar)
deriving DecidableEq, Repr

/-- A named value of the details. -/
structure Detail where
  key   : String
  value : DetailValue
deriving DecidableEq, Repr

/-- A value that may be absent. -/
def Scalar.ofOption {α : Type} (f : α → Scalar) : Option α → Scalar
  | none   => .absent
  | some a => f a

/-- A named value without parts. -/
def Detail.scalar (key : String) (s : Scalar) : Detail := ⟨key, .scalar s⟩

/-- The list, or nothing when it is empty. -/
def DetailValue.ofList : List Scalar → DetailValue
  | []      => .scalar .absent
  | s :: ss => .list (s :: ss)

/-- The details of a CONNECT packet. -/
def connectDetails (verbose : Bool) (d : ConnectDetails) : List Detail := [
  .scalar "protocol_version" (.number d.protocolVersion.toNat),
  .scalar "clean_start" (.flag d.cleanStart),
  .scalar "session_expiry" (.number d.sessionExpiry.toNat)] ++
  if verbose then [
    .scalar "keep_alive" (.number d.keepAlive.toNat),
    .scalar "receive_maximum" (.ofOption (.number ·.toNat) d.receiveMaximum),
    .scalar "maximum_packet_size" (.ofOption (.number ·.toNat) d.maximumPacketSize),
    .scalar "username" (.ofOption .text d.username),
    .scalar "auth_method" (.ofOption .text d.authMethod),
    .scalar "will_topic" (.ofOption (.text ·.topic) d.will),
    .scalar "will_qos" (.ofOption (.number ·.qos.toNat) d.will),
    .scalar "will_retain" (.ofOption (.flag ·.retain) d.will),
    .scalar "will_delay" (.ofOption (.number ·.delay.toNat) d.will)]
  else []

/-- The details of a CONNACK packet. -/
def connackDetails (verbose : Bool) (d : ConnackDetails) : List Detail := [
  .scalar "session_present" (.flag d.sessionPresent)] ++
  if verbose then [
    .scalar "session_expiry" (.ofOption (.number ·.toNat) d.sessionExpiry),
    .scalar "assigned_client_id" (.ofOption .text d.assignedClient),
    .scalar "server_keep_alive" (.ofOption (.number ·.toNat) d.serverKeepAlive),
    .scalar "maximum_qos" (.ofOption (.number ·.toNat) d.maximumQoS),
    .scalar "response_information" (.ofOption .text d.responseInformation),
    .scalar "server_reference" (.ofOption .text d.serverReference)]
  else []

/-- The details of a PUBLISH packet. -/
def publishDetails (verbose : Bool) (d : PublishDetails) : List Detail :=
  if verbose then [
    .scalar "duplicate" (.flag d.duplicate),
    .scalar "message_expiry" (.ofOption (.number ·.toNat) d.messageExpiry),
    .scalar "content_type" (.ofOption .text d.contentType),
    .scalar "response_topic" (.ofOption .text d.responseTopic),
    .scalar "correlation_data" (.ofOption .bytes d.correlationData),
    ⟨"subscription_ids", .ofList (d.subscriptionIds.map (.number ·.toNat))⟩]
  else []

/-- One value for the options of each filter. -/
def perFilter (f : SubscriptionOptions → Scalar) (subs : List Subscription) : DetailValue :=
  .list (subs.map fun s => .ofOption f s.options)

/-- The details of a SUBSCRIBE packet. -/
def subscribeDetails (verbose : Bool) (subs : List Subscription) (d : SubscribeDetails) :
    List Detail :=
  if verbose then [
    .scalar "subscription_id" (.ofOption (.number ·.toNat) d.subscriptionId),
    ⟨"no_local", perFilter (.flag ·.noLocal) subs⟩,
    ⟨"retain_as_published", perFilter (.flag ·.retainAsPublished) subs⟩,
    ⟨"retain_handling", perFilter (.number ·.retainHandling.toNat) subs⟩]
  else []

/-- The details of a DISCONNECT packet. -/
def disconnectDetails (verbose : Bool) (d : DisconnectDetails) : List Detail :=
  if verbose then [
    .scalar "session_expiry" (.ofOption (.number ·.toNat) d.sessionExpiry),
    .scalar "server_reference" (.ofOption .text d.serverReference)]
  else []

/-- What a line says of the details of a packet with these filters. -/
def detailsOf (verbose : Bool) (subs : List Subscription) : Details → List Detail
  | .connect d    => connectDetails verbose d
  | .connack d    => connackDetails verbose d
  | .publish d    => publishDetails verbose d
  | .subscribe d  => subscribeDetails verbose subs d
  | .disconnect d => disconnectDetails verbose d

/-- What the line of a record says of its details, if it has any. -/
def details (verbose : Bool) (r : Record) : List Detail :=
  (r.details.map (detailsOf verbose r.subscriptions)).getD []

end PacketLog.Line
