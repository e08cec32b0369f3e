import PacketLog.Datum
import PacketLog.Text.Hex
import PacketLog.Text.Reader

/-!
# Json — Reader

Values as they are written in the format.  A number without fraction and exponent that fits into
sixty-four bits is kept whole.  Every other is read into double precision from as many of its
digits as fit into sixty-four bits, which are scaled by a power of ten; each of the two steps
rounds, so the result need not be the nearest number there is.

The members of an object come in the order of their names, and of two with the same name the last
counts.
-/

namespace PacketLog.Json

open Text (Reader Rest length_dropWhile_le lt_of_dropWhile_eq)

/-- A blank or a line break. -/
def isSpace (c : Char) : Bool := c = ' ' || c = '\t' || c = '\n' || c = '\r'

/-- The text without the blanks and line breaks at its front. -/
def skipSpace (cs : List Char) : List Char := cs.dropWhile isSpace

theorem length_skipSpace_le (cs : List Char) : (skipSpace cs).length ≤ cs.length :=
  length_dropWhile_le isSpace cs

/-! ### Strings -/

/-- What an escape of one letter stands for. -/
def shortEscape? : Char → Option Char
  | '"'  => some '"'
  | '\\' => some '\\'
  | '/'  => some '/'
  | 'b'  => some '\x08'
  | 'f'  => some '\x0c'
  | 'n'  => some '\n'
  | 'r'  => some '\r'
  | 't'  => some '\t'
  | _    => none

/-- The character with a code point, if there is one. -/
def character? (n : Nat) : Option Char :=
  if h : n.isValidChar then some (Char.ofNatAux n h) else none

/-- The character for two numbers of sixteen bits, the first of which comes from the upper half of
those reserved for pairs and the second from the lower. -/
def paired? (high low : Nat) : Option Char :=
  if 0xD800 ≤ high && high < 0xDC00 && 0xDC00 ≤ low && low < 0xE000 then
    character? (0x10000 + (high - 0xD800) * 0x400 + (low - 0xDC00))
  else none

/-- A character of a string. -/
def char? : Reader Char
  | '\\' :: 'u' :: a :: b :: c :: d :: r => do
    let n ← Text.hexNumber? [a, b, c, d]
    match character? n with
    | some x => some (x, (Rest.tail r).cons.cons.cons.cons.cons)
    | none =>
      match hr : r with
      | '\\' :: 'u' :: e :: f :: g :: h :: s => do
        let x ← paired? n (← Text.hexNumber? [e, f, g, h])
        some (x, ⟨s, by simp only [hr, List.length_cons]; omega⟩)
      | _ => none
  | '\\' :: c :: r => (shortEscape? c).map (·, (Rest.tail r).cons)
  | c :: r => if c ≠ '"' && c ≠ '\\' && ' ' ≤ c then some (c, .tail r) else none
  | [] => none

/-- A string after its opening quote. -/
def string? : Reader String := fun cs =>
  (Text.closedBy '"' char? cs).map fun (t, rest) => (String.ofList t, rest)

/-! ### Numbers -/

/-- A number as it is written. -/
structure Numeral where
  negative : Bool
  /-- The digits before the point. -/
  whole    : List Char
  /-- The digits after the point. -/
  part     : List Char
  /-- The power of ten, if there is one. -/
  power?   : Option Int

/-- The number with these digits. -/
def ofDigits (ds : List Char) : Nat := ds.foldl (fun n d => 10 * n + (d.toNat - 48)) 0

/-- The power of ten at the end of a number, after the letter that announces it. -/
def readPower? (cs : List Char) : Option Int :=
  let (negative, ds) := match cs with
    | '-' :: r => (true, r)
    | '+' :: r => (false, r)
    | r        => (false, r)
  if ds.isEmpty || !ds.all Char.isDigit then none
  else some (if negative then -(ofDigits ds : Int) else ofDigits ds)

/-- A word as a number. -/
def Numeral.parse? (word : List Char) : Option Numeral := do
  let (negative, r) := match word with
    | '-' :: r => (true, r)
    | r        => (false, r)
  let whole := r.takeWhile Char.isDigit
  if whole.isEmpty || (whole.head? = some '0' && 1 < whole.length) then none
  let r := r.dropWhile Char.isDigit
  let (part, r) ← match r with
    | '.' :: r =>
      let part := r.takeWhile Char.isDigit
      if part.isEmpty then none else some (part, r.dropWhile Char.isDigit)
    | r => some ([], r)
  match r with
  | []                 => some { negative, whole, part, power? := none }
  | 'e' :: r | 'E' :: r => (readPower? r).map fun p => { negative, whole, part, power? := some p }
  | _                  => none

/-- As many of the digits, after those `n` is made of, as keep the number within sixty-four bits,
and how many are left over. -/
def gather (n : Nat) : List Char → Nat × Nat
  | []      => (n, 0)
  | d :: ds =>
    let m := 10 * n + (d.toNat - 48)
    if m < UInt64.size then gather m ds else (n, ds.length + 1)

/-- The power of ten as a number of double precision. -/
def tenTo (n : Nat) : Float := Float.ofScientific 1 false n

/-- A number times a power of ten, in steps for the very small. -/
def scaled (x : Float) (power : Int) : Float :=
  if power < -308 then
    if x == 0 then x else scaled (x / tenTo 308) (power + 308)
  else if power < 0 then x / tenTo power.natAbs
  else if power ≤ 308 then x * tenTo power.natAbs
  else if x == 0 then x
  else 1 / 0
termination_by power.natAbs
decreasing_by omega

/-- The value of a number.  One that is too large to be finite has none. -/
def Numeral.value? (n : Numeral) : Option Datum :=
  let (whole, more) := gather 0 n.whole
  let (significand, fewer) := gather whole n.part
  let real (x : Float) : Option Datum :=
    let x := if n.negative then -x else x
    if x.isFinite then some (.real (.ofBits x.toBits)) else none
  match n.power?, n.part, more with
  | none, [], 0 =>
    if !n.negative then some (.integer whole)
    else if 0 < whole && Int64.minValue.toInt ≤ -(whole : Int) then some (.integer (-whole))
    else real (UInt64.ofNat whole).toFloat
  | _, _, _ =>
    let power : Int := more - (n.part.length - fewer : Nat) + n.power?.getD 0
    real (scaled (UInt64.ofNat significand).toFloat power)

/-- A character of a number or of one of the three words. -/
def isWordChar (c : Char) : Bool := c.isAlphanum || c = '+' || c = '-' || c = '.'

/-- The value of a word. -/
def word? (word : List Char) : Option Datum :=
  if word = ['n', 'u', 'l', 'l'] then some .null
  else if word = ['t', 'r', 'u', 'e'] then some (.flag true)
  else if word = ['f', 'a', 'l', 's', 'e'] then some (.flag false)
  else (Numeral.parse? word).bind (·.value?)

/-! ### Values -/

/-- What `item` reads, parted by commas, up to the sign that closes the list, after what is in
`done`, which is in reverse order.  It ends a text that begins with `start`. -/
def listed? {α : Type} (close : Char) (item : Reader α) {start : List Char} (done : List α)
    (cs : List Char) (inside : cs.length ≤ start.length) : Option (List α × Rest start) :=
  match item cs with
  | none => none
  | some (a, ⟨rest, shorter⟩) =>
    match h : skipSpace rest with
    | [] => none
    | c :: r =>
      have shorter := Nat.lt_trans (lt_of_dropWhile_eq h) shorter
      if c = ',' then
        listed? close item (a :: done) r (Nat.le_of_lt (Nat.lt_of_lt_of_le shorter inside))
      else if c = close then
        some ((a :: done).reverse, ⟨r, Nat.lt_of_lt_of_le shorter inside⟩)
      else none
termination_by cs.length
decreasing_by exact shorter

/-- A list after the sign that opens it. -/
def list? {α : Type} (close : Char) (item : Reader α) : Reader (List α) := fun cs =>
  match h : skipSpace cs with
  | [] => none
  | c :: left =>
    if c = close then some ([], ⟨left, lt_of_dropWhile_eq h⟩)
    else listed? close item [] cs (Nat.le_refl _)

/-- A member of an object, with `item` for its value. -/
def member? (item : Reader Datum) : Reader (String × Datum) := fun cs =>
  match h : skipSpace cs with
  | '"' :: r => do
    let (name, ⟨rest, shorter⟩) ← string? r
    have shorter := Nat.lt_trans shorter (lt_of_dropWhile_eq h)
    match hr : skipSpace rest with
    | ':' :: s =>
      let (d, left) ← item s
      some ((name, d), left.of (Nat.le_of_lt (Nat.lt_trans (lt_of_dropWhile_eq hr) shorter)))
    | _ => none
  | _ => none

/-- Members in the order of their names, of which of two with the same name the last is kept. -/
def ordered (ms : List (String × Datum)) : List (String × Datum) :=
  (ms.mergeSort fun a b => a.1 ≤ b.1).foldr (fun m later =>
    if later.head?.any (·.1 = m.1) then later else m :: later) []

/-- The items of an array after its opening bracket. -/
def elements? (item : Reader Datum) : Reader (List Datum) := list? ']' item

/-- The members of an object after its opening brace, in the order of the text. -/
def entries? (item : Reader Datum) : Reader (List (String × Datum)) := list? '\x7d' (member? item)

/-- A value at the front of a text, with `nested?` for what arrays and objects contain, where there
may be any. -/
def front? (nested? : Option (Reader Datum)) : Reader Datum
  | '"' :: r => (string? r).map fun (t, left) => (.text t, left.cons)
  | '[' :: r => do
    let (ds, left) ← elements? (← nested?) r
    some (.array ds, left.cons)
  | '\x7b' :: r => do
    let (ms, left) ← entries? (← nested?) r
    some (.table (ordered ms), left.cons)
  | c :: r =>
    if isWordChar c then
      (word? (c :: r.takeWhile isWordChar)).map (·, .dropWhile isWordChar r)
    else none
  | [] => none

/-- What `item` reads after blanks and line breaks. -/
def spaced {α : Type} (item : Reader α) : Reader α := fun cs =>
  (item (skipSpace cs)).map fun (a, left) => (a, left.of (length_skipSpace_le cs))

/-- A value, in which arrays and objects may nest `room` deep. -/
def value? : Nat → Reader Datum
  | 0        => spaced (front? none)
  | room + 1 => spaced (front? (some (value? room)))

/-- The deepest nesting of arrays and objects. -/
def nestingLimit : Nat := 127

/-- The value a text stands for. -/
def read? (text : String) : Option Datum :=
  match value? nestingLimit text.toList with
  | some (d, ⟨rest, _⟩) => if (skipSpace rest).isEmpty then some d else none
  | none                => none

end PacketLog.Json
