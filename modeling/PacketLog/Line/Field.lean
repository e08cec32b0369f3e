import PacketLog.Line.Detail

/-!
# Line — Field

What a line says in its text form, before it is written down: named values in a fixed order.

The first twelve fields are common to all packets.  The details of the packet follow, and then, in a
verbose line, the reason and the properties.
-/

namespace PacketLog.Line

/-- A value without parts. -/
inductive Atom where
  | absent
  /-- A text that needs no quotes. -/
  | word (s : String)
  | text (s : String)
  /-- Bytes, of which some may have been cut off at the end. -/
  | bytes (bs : List UInt8) (truncated : Bool)
  | number (n : Nat)
  /-- A reason code. -/
  | code (c : UInt8)
  | flag (b : Bool)
deriving DecidableEq, Repr

/-- The value of a field. -/
inductive Value where
  | atom (a : Atom)
  | list (as : List Atom)
  /-- Filters with the quality of service each asks for. -/
  | filters (fs : List (String × Option QoS))
  | properties (ps : List (String × String))
deriving DecidableEq, Repr

/-- A named value. -/
structure Field where
  key   : String
  value : Value
deriving DecidableEq, Repr

/-- A value that may be absent. -/
def Atom.ofOption {α : Type} (f : α → Atom) : Option α → Atom
  | none   => .absent
  | some a => f a

/-- A named value without parts. -/
def Field.atom (key : String) (a : Atom) : Field := ⟨key, .atom a⟩

/-- The list, or nothing when it is empty. -/
def Value.ofList {α : Type} (f : List α → Value) : List α → Value
  | []      => .atom .absent
  | a :: as => f (a :: as)

/-- The fields that every line has. -/
def commonFields (r : Record) : List Field := [
  .atom "ts" (.word r.time.text),
  .atom "kind" (.word r.kind.name),
  .atom "dir" (.word r.direction.label),
  .atom "client" (.text r.client),
  .atom "topic" (.ofOption .text r.topic),
  ⟨"topics", .ofList .filters (r.subscriptions.map fun s => (s.filter, s.qos))⟩,
  .atom "qos" (.ofOption (.number ·.code) r.qos),
  .atom "retain" (.flag r.retain),
  .atom "reason" (.ofOption .code r.reasonCode),
  .atom "payload_len" (.number r.payloadLength),
  .atom "payload" (.ofOption (.bytes · r.truncated) r.payload),
  .atom "truncated" (.flag r.truncated)]

/-! ### Details as fields -/

/-- A value of the details without parts, all of which is there. -/
def Scalar.atom : Scalar → Atom
  | .absent   => .absent
  | .flag b   => .flag b
  | .number n => .number n
  | .text s   => .text s
  | .bytes bs => .bytes bs false

/-- A value of the details. -/
def DetailValue.value : DetailValue → Value
  | .scalar s => .atom s.atom
  | .list ss  => .list (ss.map Scalar.atom)

/-- A detail as a field. -/
def Detail.field (d : Detail) : Field := ⟨d.key, d.value.value⟩

@[simp] theorem Scalar.atom_flag (b : Bool) : (flag b).atom = .flag b := rfl

@[simp] theorem Scalar.atom_number (n : Nat) : (number n).atom = .number n := rfl

@[simp] theorem Scalar.atom_text (s : String) : (text s).atom = .text s := rfl

@[simp] theorem Scalar.atom_bytes (bs : List UInt8) : (bytes bs).atom = .bytes bs false := rfl

@[simp] theorem Scalar.atom_ofOption {α : Type} (f : α → Scalar) (o : Option α) :
    (ofOption f o).atom = .ofOption (fun a => (f a).atom) o := by
  cases o <;> rfl

@[simp] theorem Detail.field_mk (key : String) (v : DetailValue) :
    (mk key v).field = ⟨key, v.value⟩ := rfl

@[simp] theorem Detail.field_scalar (key : String) (s : Scalar) :
    (scalar key s).field = .atom key s.atom := rfl

@[simp] theorem DetailValue.value_ofList (ss : List Scalar) :
    (ofList ss).value = .ofList .list (ss.map Scalar.atom) := by
  cases ss <;> rfl

/-! ### All fields -/

/-- The fields that close a verbose line. -/
def closingFields (verbose : Bool) (r : Record) : List Field :=
  if verbose then [
    .atom "reason_string" (.ofOption .text r.reason),
    ⟨"user_properties", .ofList .properties r.properties⟩]
  else []

/-- What the line of a record says. -/
def fields (verbose : Bool) (r : Record) : List Field :=
  commonFields r ++ (details verbose r).map Detail.field ++ closingFields verbose r

end PacketLog.Line
