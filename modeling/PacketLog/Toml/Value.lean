import PacketLog.Toml.Quoted
import PacketLog.Toml.Scalar
import PacketLog.Toml.Table

/-!
# Toml — Value

Values, with the arrays and tables that can stand inside a line.  An array may spread over
several lines and end with a comma; a table may do neither.  Values nest at most
`nestingLimit` deep.
-/

namespace PacketLog.Toml

open Text (Reader Rest lt_of_dropWhile_eq)

/-- The deepest nesting of arrays and inline tables, and the greatest number of names in a dotted
key. -/
def nestingLimit : Nat := 79

/-- A letter, digit, hyphen or underscore: what a name may consist of without quotes. -/
def isBareChar (c : Char) : Bool := c.isAlphanum || c = '-' || c = '_'

/-- One name of a key. -/
def name? : Reader String
  | [] => none
  | c :: r =>
    if c = '"' || c = '\'' then quoted? (c :: r)
    else if isBareChar c then
      some (String.ofList (c :: r.takeWhile isBareChar), .dropWhile isBareChar r)
    else none

/-- The names of a dotted key, up to `room` of them, with blanks around each. -/
def names? : Nat → Reader (List String)
  | 0, _ => none
  | room + 1, cs => do
    let (n, ⟨rest, shorter⟩) ← name? (skipBlank cs)
    have shorter := Nat.lt_of_lt_of_le shorter (length_skipBlank_le cs)
    match h : skipBlank rest with
    | '.' :: r =>
      let (ns, left) ← names? room r
      some (n :: ns, left.of (Nat.le_of_lt (Nat.lt_trans (lt_of_dropWhile_eq h) shorter)))
    | r => some ([n], ⟨r, h ▸ Nat.lt_of_le_of_lt (length_skipBlank_le rest) shorter⟩)

/-- A dotted key. -/
def key? : Reader (List String) := names? nestingLimit

/-- The items of an array up to its closing bracket, with `item` for each, after those in `done`,
which are in reverse order.  They end a text that begins with `start`. -/
def arrayItems? (item : Reader Datum) {start : List Char} (done : List Datum) (cs : List Char)
    (inside : cs.length ≤ start.length) : Option (List Datum × Rest start) :=
  match hc : skipGap cs with
  | ']' :: r => some (done.reverse, ⟨r, Nat.lt_of_lt_of_le (lt_of_skipGap_eq hc) inside⟩)
  | body =>
    have bound : body.length ≤ cs.length := hc ▸ length_skipGap_le cs
    match item body with
    | none => none
    | some (d, ⟨rest, shorter⟩) =>
      have shorter := Nat.lt_of_lt_of_le shorter bound
      match hr : skipGap rest with
      | ',' :: r =>
        have shorter := Nat.lt_trans (lt_of_skipGap_eq hr) shorter
        arrayItems? item (d :: done) r (Nat.le_of_lt (Nat.lt_of_lt_of_le shorter inside))
      | ']' :: r =>
        have shorter := Nat.lt_trans (lt_of_skipGap_eq hr) shorter
        some ((d :: done).reverse, ⟨r, Nat.lt_of_lt_of_le shorter inside⟩)
      | _ => none
termination_by cs.length
decreasing_by exact shorter

/-- A key, its equals sign and its value. -/
def pair? (item : Reader Datum) : Reader (List String × Datum) := fun cs =>
  match key? cs with
  | some (ns, ⟨'=' :: r, shorter⟩) =>
    have shorter := Nat.lt_of_le_of_lt (length_skipBlank_le r) (Nat.lt_of_succ_lt shorter)
    (item (skipBlank r)).map fun (d, left) => ((ns, d), left.of (Nat.le_of_lt shorter))
  | _ => none

/-- Enter a value under a dotted key. -/
def Entries.enter (names : List String) (d : Datum) (es : Entries) : Option Entries :=
  match names.getLast? with
  | some key => es.assign names.dropLast key d
  | none     => none

/-- The pairs of an inline table up to its closing brace, entered after those in `es`.  They end a
text that begins with `start`. -/
def inlinePairs? (item : Reader Datum) {start : List Char} (es : Entries) (cs : List Char)
    (inside : cs.length ≤ start.length) : Option (Entries × Rest start) :=
  match pair? item cs with
  | none => none
  | some ((ns, d), ⟨rest, shorter⟩) =>
    match es.enter ns d with
    | none => none
    | some es =>
      match h : skipBlank rest with
      | ',' :: r =>
        have shorter := Nat.lt_trans (lt_of_dropWhile_eq h) shorter
        inlinePairs? item es r (Nat.le_of_lt (Nat.lt_of_lt_of_le shorter inside))
      | '\x7d' :: r =>
        have shorter := Nat.lt_trans (lt_of_dropWhile_eq h) shorter
        some (es, ⟨r, Nat.lt_of_lt_of_le shorter inside⟩)
      | _ => none
termination_by cs.length
decreasing_by exact shorter

/-- A value, in which arrays and inline tables may nest `room` deep. -/
def value? : Nat → Reader Datum
  | _, [] => none
  | room, c :: r =>
    match c, room with
    | '"', _ | '\'', _ => (text? (c :: r)).map fun (t, left) => (.text t, left)
    | '[', 0 | '\x7b', 0 => none
    | '[', room + 1 =>
      (arrayItems? (value? room) [] r (Nat.le_refl _)).map fun (ds, left) =>
        (.array ds, left.cons)
    | '\x7b', room + 1 =>
      match h : skipBlank r with
      | '\x7d' :: left => some (.table [], ⟨left, Nat.lt_succ_of_lt (lt_of_dropWhile_eq h)⟩)
      | _ =>
        (inlinePairs? (value? room) [] r (Nat.le_refl _)).map fun (es, left) =>
          (.table (entryData es), left.cons)
    | _, _ => scalar? (c :: r)

end PacketLog.Toml
