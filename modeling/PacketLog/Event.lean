import PacketLog.Instant
import PacketLog.Packet.Details

/-!
# Event

A packet as the broker hands it over: the fields every packet may have, in the form they have on
the wire, and the details of its kind.
-/

namespace PacketLog

/-- A filter of a SUBSCRIBE or UNSUBSCRIBE packet, as it is requested. -/
structure Request where
  filter  : String
  qos     : Option UInt8 := none
  options : Option SubscriptionOptions := none
deriving DecidableEq

/-- A packet as the broker hands it over. -/
structure Event where
  code        : UInt8
  direction   : Direction
  client      : String := ""
  topic       : Option String := none
  requests    : List Request := []
  qos         : Option UInt8 := none
  retain      : Bool := false
  payload     : Option (List UInt8) := none
  reasonCodes : List UInt8 := []
  reason      : Option String := none
  properties  : List (String × String) := []
  details     : Option Details := none
  time        : Instant
deriving DecidableEq

end PacketLog
