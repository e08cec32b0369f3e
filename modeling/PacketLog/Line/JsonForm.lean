import PacketLog.Json.Draft
import PacketLog.Line.Bytes
import PacketLog.Line.Detail

/-!
# Line — JsonForm

A line in the data format: one object, the members of which have names and an order of their own.

The line is put together as a record, in which an absent value is nothing, bytes are a string, and a
filter and a property are records of two fields.  Its details are a map without a name, so that
their entries stand in its place.  Then the record is written.  Should it have a fault, the line
says so instead.
-/

namespace PacketLog

open Json (Draft)

/-- The name by which a kind stands in the data format, before it is put in capitals. -/
def PacketKind.variant : PacketKind → String
  | .connect     => "Connect"
  | .connack     => "Connack"
  | .disconnect  => "Disconnect"
  | .publish     => "Publish"
  | .puback      => "Puback"
  | .pubrec      => "Pubrec"
  | .pubrel      => "Pubrel"
  | .pubcomp     => "Pubcomp"
  | .subscribe   => "Subscribe"
  | .suback      => "Suback"
  | .unsubscribe => "Unsubscribe"
  | .unsuback    => "Unsuback"
  | .ping        => "Ping"
  | .other       => "Other"

/-- A kind, in the data format. -/
def PacketKind.draft (k : PacketKind) : Draft := .string (k.variant.toList.map Char.toUpper)

namespace Line

/-- The text that stands for bytes. -/
def bytesText (bs : List UInt8) (truncated : Bool) : List Char :=
  match shownText? bs truncated with
  | some cs => cs
  | none    => markedHex bs

/-- A value of the details without parts, in the data format. -/
def Scalar.draft : Scalar → Draft
  | .absent   => .null
  | .flag b   => .flag b
  | .number n => .number n
  | .text s   => .text s
  | .bytes bs => .string (bytesText bs false)

/-- A value of the details, in the data format. -/
def DetailValue.draft : DetailValue → Draft
  | .scalar s => s.draft
  | .list ss  => .sequence (ss.map Scalar.draft)

/-- The details as a map. -/
def detailsDraft (ds : List Detail) : Draft := .map (ds.map fun d => (.text d.key, d.value.draft))

end Line

/-- A filter, in the data format. -/
structure JsonFilter where
  filter : String
  qos    : Option Nat

/-- A property, in the data format. -/
structure JsonProperty where
  key   : String
  value : String

/-- A line, in the data format. -/
structure JsonLine where
  time           : String
  kind           : PacketKind
  direction      : String
  client         : String
  topic          : Option String
  topics         : Option (List JsonFilter)
  qos            : Option Nat
  retain         : Bool
  reason         : Option UInt8
  payloadLength  : Nat
  payload        : Option (List Char)
  truncated      : Bool
  details        : List Line.Detail
  /-- Without a value there is no such member. -/
  reasonString   : Option (Option String)
  /-- Without a value there is no such member. -/
  userProperties : Option (Option (List JsonProperty))

/-- The record of a filter. -/
def JsonFilter.draft (f : JsonFilter) : Draft :=
  .record [(some "filter", .text f.filter), (some "qos", .ofOption .number f.qos)]

/-- The record of a property. -/
def JsonProperty.draft (p : JsonProperty) : Draft :=
  .record [(some "key", .text p.key), (some "value", .text p.value)]

namespace JsonLine

/-- The line of a record. -/
def ofRecord (verbose : Bool) (r : Record) : JsonLine where
  time           := r.time.text
  kind           := r.kind
  direction      := r.direction.label
  client         := r.client
  topic          := r.topic
  topics         :=
    if r.subscriptions.isEmpty then none
    else some (r.subscriptions.map fun s => ⟨s.filter, s.qos.map (·.code)⟩)
  qos            := r.qos.map (·.code)
  retain         := r.retain
  reason         := r.reasonCode
  payloadLength  := r.payloadLength
  payload        := r.payload.map (Line.bytesText · r.truncated)
  truncated      := r.truncated
  details        := Line.details verbose r
  reasonString   := if verbose then some r.reason else none
  userProperties :=
    if verbose then
      some (if r.properties.isEmpty then none else some (r.properties.map fun p => ⟨p.1, p.2⟩))
    else none

/-- The fields that a line need not have. -/
def optionalFields (l : JsonLine) : List (Option String × Draft) :=
  (l.reasonString.map fun s => (some "reason_string", .ofOption .text s)).toList ++
    (l.userProperties.map fun ps =>
      (some "user_properties",
        .ofOption (fun ps => .sequence (ps.map JsonProperty.draft)) ps)).toList

/-- The record of a line. -/
def draft (l : JsonLine) : Draft :=
  .record <| [
    (some "ts", .text l.time),
    (some "kind", l.kind.draft),
    (some "dir", .text l.direction),
    (some "client", .text l.client),
    (some "topic", .ofOption .text l.topic),
    (some "topics", .ofOption (fun fs => .sequence (fs.map JsonFilter.draft)) l.topics),
    (some "qos", .ofOption .number l.qos),
    (some "retain", .flag l.retain),
    (some "reason", .ofOption (fun c => .number c.toNat) l.reason),
    (some "payload_len", .number l.payloadLength),
    (some "payload", .ofOption .string l.payload),
    (some "truncated", .flag l.truncated),
    (none, Line.detailsDraft l.details)] ++ l.optionalFields

end JsonLine

/-- What a line says of a record that cannot be written. -/
def Record.faultLine (r : Record) (e : Json.Fault) : List Char :=
  s!"\x7b\"ts\":\"{r.time.text}\",\"kind\":\"{r.kind.name}\",\"error\":".toList ++
    Json.quote e.message.toList ++ ['\x7d']

/-- The line of a record in the data format. -/
def Record.jsonForm (verbose : Bool) (r : Record) : List Char :=
  match (JsonLine.ofRecord verbose r).draft.write with
  | .ok cs   => cs
  | .error e => r.faultLine e

end PacketLog
