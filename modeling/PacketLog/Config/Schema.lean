import PacketLog.Datum
import PacketLog.Text.Literal

/-!
# Config — Schema

Readers from the values of a document to typed settings, and the faults they report.

A record may be written as a table or as an array of its fields in order.  Its entries are read in
the order of the document and the first fault is the one reported; a field that is missing is
noticed only after all that are present.  The two dialects differ in how strict they are: a
configuration document lets an array have more members than the record has fields, and lets a
choice be written as a table with one empty entry; a plain value is read strictly.
-/

namespace PacketLog.Config

/-- Where a value stands. -/
inductive Dialect where
  /-- In a configuration document. -/
  | document
  /-- By itself. -/
  | value
deriving DecidableEq, Repr

/-- What kind of value was found, with as much of it as a message cites. -/
inductive Shape where
  | null
  | flag (b : Bool)
  | integer (n : Int)
  | real (x : Binary64)
  | text (s : String)
  | sequence
  | map
deriving DecidableEq

/-- The kind of a value.  A date counts as a map. -/
def shapeOf : Datum → Shape
  | .null      => .null
  | .flag b    => .flag b
  | .integer n => .integer n
  | .real x    => .real x
  | .text s    => .text s
  | .moment    => .map
  | .array _   => .sequence
  | .table _   => .map

/-- Why a value does not have the required form. -/
inductive Fault where
  | wrongType (found : Shape) (expected : String)
  | wrongValue (found : Shape) (expected : String)
  | wrongLength (length : Nat) (expected : String)
  | missingField (name : String)
  | unknownField (name : String) (known : List String)
  | unknownChoice (name : String) (known : List String)
  /-- None of the forms a type can take fits. -/
  | noForm (type : String)
  /-- A fault without a wording. -/
  | unworded
deriving DecidableEq

/-- The words for what was found. -/
def Shape.describe (dialect : Dialect) : Shape → String
  | .null      => "null"
  | .flag b    => s!"boolean `{b}`"
  | .integer n => s!"integer `{n}`"
  | .real x    =>
    let digits := match dialect with
      | .document => Binary64.positional.text x
      | .value    => Binary64.scientific.text x
    s!"floating point `{digits}`"
  | .text s    => s!"string {Text.cite s}"
  | .sequence  => "sequence"
  | .map       => "map"

/-- The names that would have been known. -/
def describeKnown (names : List String) : String :=
  match names.map (fun n => s!"`{n}`") with
  | []     => "nothing"
  | [a]    => a
  | [a, b] => s!"{a} or {b}"
  | quoted => "one of " ++ ", ".intercalate quoted

/-- The wording of a fault, if it has one. -/
def Fault.message? (dialect : Dialect) : Fault → Option String
  | .wrongType found expected  =>
    some s!"invalid type: {found.describe dialect}, expected {expected}"
  | .wrongValue found expected =>
    some s!"invalid value: {found.describe dialect}, expected {expected}"
  | .wrongLength n expected    => some s!"invalid length {n}, expected {expected}"
  | .missingField name         => some s!"missing field `{name}`"
  | .unknownField name known   =>
    some s!"unknown field `{name}`, expected {describeKnown known}"
  | .unknownChoice name known  =>
    some s!"unknown variant `{name}`, expected {describeKnown known}"
  | .noForm type               => some s!"data did not match any variant of untagged enum {type}"
  | .unworded                  => none

/-- Reads a typed value. -/
abbrev Decoder (α : Type) := Dialect → Datum → Except Fault α

namespace Decoder

/-- A truth value. -/
def flag : Decoder Bool
  | _, .flag b => .ok b
  | _, d       => .error (.wrongType (shapeOf d) "a boolean")

/-- A text, called `expected` where there is none. -/
def text (expected : String := "a string") : Decoder String
  | _, .text s => .ok s
  | _, d       => .error (.wrongType (shapeOf d) expected)

/-- A whole number between the bounds, called `expected` where there is none. -/
def integer (low high : Int) (expected : String) : Decoder Int
  | _, .integer n =>
    if low ≤ n && n ≤ high then .ok n else .error (.wrongValue (.integer n) expected)
  | _, d => .error (.wrongType (shapeOf d) expected)

/-- A natural number below `2 ^ bits`, called `expected` where there is none. -/
def natural (bits : Nat) (expected : String) : Decoder Nat := fun dialect d =>
  (integer 0 (Nat.pow 2 bits - 1) expected dialect d).map Int.toNat

/-- A list of values. -/
def list {α : Type} (item : Decoder α) : Decoder (List α)
  | dialect, .array ds => ds.mapM (item dialect)
  | _, d               => .error (.wrongType (shapeOf d) "a sequence")

/-- The name under which a date appears where a table is expected. -/
def momentKey : String := "$__toml_private_datetime"

/-- Named values, in the order of the document. -/
def named {α : Type} (item : Decoder α) : Decoder (List (String × α))
  | dialect, .table es => es.mapM fun (k, d) => (item dialect d).map (k, ·)
  | dialect, .moment   => (item dialect (.text "")).map fun a => [(momentKey, a)]
  | _, d               => .error (.wrongType (shapeOf d) "a map")

/-- One of the choices named.  It may be written as a table whose only entry has the name and is
empty, which in a document means an empty table or array. -/
def choice {α : Type} (choices : List (String × α)) : Decoder α := fun dialect d =>
  let pick (name : String) : Except Fault α :=
    match choices.lookup name with
    | some a => .ok a
    | none   => .error (.unknownChoice name (choices.map (·.1)))
  match dialect, d with
  | _, .text s => pick s
  | .document, .table [(k, e)] => do
    let a ← pick k
    match e with
    | .table [] | .array [] => .ok a
    | _                     => .error .unworded
  | .document, _ => .error .unworded
  | .value, .table [(k, e)] => do
    let a ← pick k
    match e with
    | .null => .ok a
    | _     => .error (.wrongType (shapeOf e) "unit")
  | .value, .table _ => .error (.wrongValue .map "map with a single key")
  | .value, _        => .error (.wrongType (shapeOf d) "string or map")

end Decoder

/-- A field of a record that is being read. -/
structure Field (ρ : Type) where
  name : String
  read : Dialect → Datum → ρ → Except Fault ρ

namespace Field

/-- A field that must not be null. -/
def required {ρ α : Type} (name : String) (decode : Decoder α) (set : α → ρ → ρ) : Field ρ where
  name
  read dialect d r := (decode dialect d).map (set · r)

/-- A field that a null leaves alone. -/
def optional {ρ α : Type} (name : String) (decode : Decoder α) (set : α → ρ → ρ) : Field ρ where
  name
  read dialect d r :=
    match d with
    | .null => .ok r
    | _     => (decode dialect d).map (set · r)

end Field

/-- A record type: its name, its fields in order, and how many of them an array must give. -/
structure Record (ρ : Type) where
  type   : String
  fields : List (Field ρ)
  needed : Nat := 0

namespace Record

variable {ρ : Type}

/-- Read the entries of a table in order. -/
def readEntries (rec : Record ρ) (dialect : Dialect) :
    List (String × Datum) → ρ → Except Fault ρ
  | [], r           => .ok r
  | (k, d) :: es, r =>
    match rec.fields.find? (·.name = k) with
    | some f => do rec.readEntries dialect es (← f.read dialect d r)
    | none   => .error (.unknownField k (rec.fields.map (·.name)))

/-- Read the members of an array into the fields that are left, `done` having been read. -/
def readItems (rec : Record ρ) (dialect : Dialect) (done : Nat) :
    List (Field ρ) → List Datum → ρ → Except Fault ρ
  | [], ds, r =>
    if dialect = .value && !ds.isEmpty then
      .error (.wrongLength (done + ds.length) "fewer elements in array")
    else .ok r
  | _ :: _, [], r =>
    if done < rec.needed then
      .error (.wrongLength done s!"struct {rec.type} with {rec.fields.length} elements")
    else .ok r
  | f :: fs, d :: ds, r => do rec.readItems dialect (done + 1) fs ds (← f.read dialect d r)

/-- Read a record, starting from one in which nothing is set. -/
def decode (rec : Record ρ) (empty : ρ) : Decoder ρ
  | dialect, .table es => rec.readEntries dialect es empty
  | dialect, .array ds => rec.readItems dialect 0 rec.fields ds empty
  | dialect, .moment   => rec.readEntries dialect [(Decoder.momentKey, .text "")] empty
  | _, d               => .error (.wrongType (shapeOf d) s!"struct {rec.type}")

end Record

end PacketLog.Config
