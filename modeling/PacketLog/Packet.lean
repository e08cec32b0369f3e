import PacketLog.Text.Ascii

/-!
# Packet

The vocabulary of the protocol: the kinds of packets the log tells apart, the two directions they
travel in, and the three qualities of service.  Both ping packets are one kind, told apart by
their direction; every code without a kind of its own is `other`.
-/

namespace PacketLog

/-- A kind of packet the log tells apart. -/
inductive PacketKind where
  | connect | connack | disconnect | publish | puback | pubrec | pubrel | pubcomp
  | subscribe | suback | unsubscribe | unsuback | ping | other
deriving DecidableEq, Repr, Inhabited

namespace PacketKind

/-- Every kind, in the order in which flags are listed. -/
def all : List PacketKind :=
  [.connect, .connack, .disconnect, .publish, .puback, .pubrec, .pubrel, .pubcomp,
    .subscribe, .suback, .unsubscribe, .unsuback, .ping, .other]

theorem mem_all (k : PacketKind) : k ∈ all := by cases k <;> simp [all]

/-- The name of a kind, in capitals. -/
def name : PacketKind → String
  | .connect     => "CONNECT"
  | .connack     => "CONNACK"
  | .disconnect  => "DISCONNECT"
  | .publish     => "PUBLISH"
  | .puback      => "PUBACK"
  | .pubrec      => "PUBREC"
  | .pubrel      => "PUBREL"
  | .pubcomp     => "PUBCOMP"
  | .subscribe   => "SUBSCRIBE"
  | .suback      => "SUBACK"
  | .unsubscribe => "UNSUBSCRIBE"
  | .unsuback    => "UNSUBACK"
  | .ping        => "PING"
  | .other       => "OTHER"

/-- The kind of this name, in letters of either case. -/
def ofName? (s : String) : Option PacketKind := all.find? fun k => Text.sameLetters k.name s

/-- The kind of a control packet type code. -/
def ofCode (code : UInt8) : PacketKind :=
  match code.toNat with
  | 1  => .connect
  | 2  => .connack
  | 3  => .publish
  | 4  => .puback
  | 5  => .pubrec
  | 6  => .pubrel
  | 7  => .pubcomp
  | 8  => .subscribe
  | 9  => .suback
  | 10 => .unsubscribe
  | 11 => .unsuback
  | 12 => .ping
  | 13 => .ping
  | 14 => .disconnect
  | _  => .other

end PacketKind

/-- Which way a packet travels. -/
inductive Direction where
  /-- From a client to the broker. -/
  | inbound
  /-- From the broker to a client. -/
  | outbound
deriving DecidableEq, Repr, Inhabited

namespace Direction

/-- The short name a line shows. -/
def label : Direction → String
  | .inbound  => "in"
  | .outbound => "out"

/-- The full name. -/
def name : Direction → String
  | .inbound  => "inbound"
  | .outbound => "outbound"

end Direction

/-- A quality of service. -/
inductive QoS where
  | atMostOnce
  | atLeastOnce
  | exactlyOnce
deriving DecidableEq, Repr

namespace QoS

/-- The quality with this code. -/
def ofCode? (code : UInt8) : Option QoS :=
  match code.toNat with
  | 0 => some .atMostOnce
  | 1 => some .atLeastOnce
  | 2 => some .exactlyOnce
  | _ => none

/-- The code of a quality. -/
def code : QoS → Nat
  | .atMostOnce  => 0
  | .atLeastOnce => 1
  | .exactlyOnce => 2

end QoS

end PacketLog
