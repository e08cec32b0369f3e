import PacketLog.Json

/-!
# Json — Draft

Data as a program hands it over to be written in the data format.

Drafts are wider than the format.  The keys of a map may be any data, and a field of a record may
have no name: the entries of what it holds then stand in its place.  So not every draft can be
written, and one that cannot has a fault, the first that is met.
-/

namespace PacketLog.Json

/-- Data that is handed over to be written. -/
inductive Draft where
  | null
  | flag (b : Bool)
  | number (n : Nat)
  | string (cs : List Char)
  | sequence (items : List Draft)
  | map (entries : List (Draft × Draft))
  /-- Fields with and without a name. -/
  | record (fields : List (Option String × Draft))

/-- Why a draft cannot be written. -/
inductive Fault where
  /-- A key is neither a string nor anything that can be spelt as one. -/
  | badKey
  /-- A field without a name holds this, which has no entries. -/
  | notFlat (found : String)
deriving DecidableEq, Repr

/-- The wording. -/
def Fault.message : Fault → String
  | .badKey        => "key must be a string"
  | .notFlat found => s!"can only flatten structs and maps (got {found})"

namespace Draft

/-- A text. -/
def text (s : String) : Draft := .string s.toList

/-- Nothing, or what there is. -/
def ofOption {α : Type} (f : α → Draft) : Option α → Draft
  | none   => .null
  | some a => f a

/-- A key as a string. -/
def key : Draft → Except Fault String
  | .string cs => .ok (String.ofList cs)
  | .number n  => .ok (toString n)
  | .flag b    => .ok (toString b)
  | _          => .error .badKey

mutual

/-- The value that a draft is written as. -/
def toJson : Draft → Except Fault Json
  | .null           => .ok .null
  | .flag b         => .ok (.flag b)
  | .number n       => .ok (.number n)
  | .string cs      => .ok (.string cs)
  | .sequence items => do return .array (← toItems items)
  | .map entries    => do return .object (← toEntries entries)
  | .record fields  => do return .object (← toMembers fields)

/-- The items of an array. -/
def toItems : List Draft → Except Fault (List Json)
  | []      => .ok []
  | d :: ds => do
    let v ← d.toJson
    return v :: (← toItems ds)

/-- The entries of a map as members of an object. -/
def toEntries : List (Draft × Draft) → Except Fault (List (String × Json))
  | []           => .ok []
  | (k, d) :: es => do
    let name ← k.key
    let v ← d.toJson
    return (name, v) :: (← toEntries es)

/-- The fields of a record as members of an object.  A field without a name may also hold nothing,
and then gives no members. -/
def toMembers : List (Option String × Draft) → Except Fault (List (String × Json))
  | []                => .ok []
  | (some name, d) :: fs => do
    let v ← d.toJson
    return (name, v) :: (← toMembers fs)
  | (none, .map entries) :: fs => do
    let members ← toEntries entries
    return members ++ (← toMembers fs)
  | (none, .record fields) :: fs => do
    let members ← toMembers fields
    return members ++ (← toMembers fs)
  | (none, .null) :: fs => toMembers fs
  | (none, .flag _) :: _     => .error (.notFlat "a boolean")
  | (none, .number _) :: _   => .error (.notFlat "an integer")
  | (none, .string _) :: _   => .error (.notFlat "a string")
  | (none, .sequence _) :: _ => .error (.notFlat "a sequence")

end

/-- The spelling of a draft. -/
def write (d : Draft) : Except Fault (List Char) := d.toJson.map Json.render

end Draft

end PacketLog.Json
