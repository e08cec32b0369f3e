import PacketLog.Packet

/-!
# Packet — Details

The fields that only one kind of packet has, and the options that a filter of a SUBSCRIBE packet
can carry.
-/

namespace PacketLog

/-- The message a broker publishes for a client that is gone. -/
structure Will where
  topic  : String
  qos    : UInt8 := 0
  retain : Bool := false
  delay  : UInt32 := 0
deriving DecidableEq

/-- The fields of a CONNECT packet. -/
structure ConnectDetails where
  protocolVersion   : UInt8 := 0
  cleanStart        : Bool := false
  sessionExpiry     : UInt32 := 0
  keepAlive         : UInt16 := 0
  receiveMaximum    : Option UInt16 := none
  maximumPacketSize : Option UInt32 := none
  username          : Option String := none
  authMethod        : Option String := none
  will              : Option Will := none
deriving DecidableEq

/-- The fields of a CONNACK packet. -/
structure ConnackDetails where
  sessionPresent      : Bool := false
  sessionExpiry       : Option UInt32 := none
  assignedClient      : Option String := none
  serverKeepAlive     : Option UInt16 := none
  maximumQoS          : Option UInt8 := none
  responseInformation : Option String := none
  serverReference     : Option String := none
deriving DecidableEq

/-- The fields of a PUBLISH packet. -/
structure PublishDetails where
  duplicate       : Bool := false
  messageExpiry   : Option UInt32 := none
  contentType     : Option String := none
  responseTopic   : Option String := none
  correlationData : Option (List UInt8) := none
  subscriptionIds : List UInt32 := []
deriving DecidableEq

/-- The fields of a SUBSCRIBE packet. -/
structure SubscribeDetails where
  subscriptionId : Option UInt32 := none
deriving DecidableEq

/-- The fields of a DISCONNECT packet. -/
structure DisconnectDetails where
  sessionExpiry   : Option UInt32 := none
  serverReference : Option String := none
deriving DecidableEq

/-- The fields that only one kind of packet has. -/
inductive Details where
  | connect (d : ConnectDetails)
  | connack (d : ConnackDetails)
  | publish (d : PublishDetails)
  | subscribe (d : SubscribeDetails)
  | disconnect (d : DisconnectDetails)
deriving DecidableEq

/-- The kind of packet these fields belong to. -/
def Details.kind : Details → PacketKind
  | .connect _    => .connect
  | .connack _    => .connack
  | .publish _    => .publish
  | .subscribe _  => .subscribe
  | .disconnect _ => .disconnect

/-- The options of one filter of a SUBSCRIBE packet. -/
structure SubscriptionOptions where
  noLocal           : Bool := false
  retainAsPublished : Bool := false
  retainHandling    : UInt8 := 0
deriving DecidableEq

end PacketLog
