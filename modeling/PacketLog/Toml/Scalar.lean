import PacketLog.Datum
import PacketLog.Toml.Blank

/-!
# Toml — Scalar

Numbers, truth values, dates and times.  None of them contains a blank or a bracket, with one
exception: a single space may part a date from a time.  So the word up to the next such character
is taken first and then classified as a whole.
-/

namespace PacketLog.Toml

open Text (Reader Rest length_dropWhile_le lt_of_dropWhile_eq)

/-- A character of a number, a truth value, a date or a time. -/
def isWordChar (c : Char) : Bool :=
  c.isAlphanum || c = '+' || c = '-' || c = '.' || c = ':' || c = '_'

/-- The digits in groups parted by single underscores, without the underscores. -/
def grouped? (isDigit : Char → Bool) : List Char → Option (List Char)
  | []            => none
  | [c]           => if isDigit c then some [c] else none
  | c :: '_' :: r => if isDigit c then (grouped? isDigit r).map (c :: ·) else none
  | c :: d :: r   => if isDigit c then (grouped? isDigit (d :: r)).map (c :: ·) else none

/-- The number with these digits. -/
def ofDigits (base : Nat) (ds : List Char) : Nat :=
  ds.foldl (fun n d =>
    base * n + (if d.isDigit then d.toNat - 48 else d.toLower.toNat - 87)) 0

/-- A sign at the front, with whether it is a minus. -/
def signed : List Char → Bool × List Char
  | '+' :: r => (false, r)
  | '-' :: r => (true, r)
  | cs       => (false, cs)

/-- Decimal digits without a superfluous zero at the front. -/
def plain? (cs : List Char) : Option (List Char) :=
  match cs with
  | '0' :: _ :: _ => none
  | _             => grouped? Char.isDigit cs

/-- The numbers of sixty-four bits with a sign. -/
def inRange (n : Int) : Bool := Int64.minValue.toInt ≤ n && n ≤ Int64.maxValue.toInt

/-- A hexadecimal digit. -/
def isHexDigit (c : Char) : Bool :=
  c.isDigit || ('a' ≤ c && c ≤ 'f') || ('A' ≤ c && c ≤ 'F')

/-- A whole number: decimal with an optional sign, or with a base and no sign. -/
def integer? (word : List Char) : Option Int :=
  let n? : Option Int :=
    match word with
    | '0' :: 'x' :: r => (grouped? isHexDigit r).map fun ds => (ofDigits 16 ds : Int)
    | '0' :: 'o' :: r =>
      (grouped? (fun c => '0' ≤ c && c ≤ '7') r).map fun ds => (ofDigits 8 ds : Int)
    | '0' :: 'b' :: r =>
      (grouped? (fun c => c = '0' || c = '1') r).map fun ds => (ofDigits 2 ds : Int)
    | _ =>
      let (negative, r) := signed word
      (plain? r).map fun ds => if negative then -(ofDigits 10 ds : Int) else ofDigits 10 ds
  n?.filter inRange

/-- The power of ten after the letter that announces it. -/
def power? (cs : List Char) : Option Int :=
  let (negative, r) := signed cs
  (grouped? Char.isDigit r).map fun ds =>
    if negative then -(ofDigits 10 ds : Int) else ofDigits 10 ds

/-- The number announces a power of ten here. -/
def isPowerMark (c : Char) : Bool := c = 'e' || c = 'E'

/-- A number with a fraction, a power of ten or both. -/
def decimal? (word : List Char) : Option Binary64 := do
  let (negative, r) := signed word
  let (whole, r) := (r.takeWhile fun c => c.isDigit || c = '_',
    r.dropWhile fun c => c.isDigit || c = '_')
  let wholeDigits ← plain? whole
  match r with
  | '.' :: r =>
    let (part, r) := (r.takeWhile (!isPowerMark ·), r.dropWhile (!isPowerMark ·))
    let partDigits ← grouped? Char.isDigit part
    let p ← match r with
      | []     => some 0
      | _ :: r => power? r
    some (.ofDecimal negative (ofDigits 10 (wholeDigits ++ partDigits)) (p - partDigits.length))
  | c :: r =>
    if isPowerMark c then
      let p ← power? r
      some (.ofDecimal negative (ofDigits 10 wholeDigits) p)
    else none
  | [] => none

/-- A number of double precision.  One too large to be finite is refused unless it is negative. -/
def real? (word : List Char) : Option Binary64 :=
  match signed word with
  | (negative, ['i', 'n', 'f']) => some (.infinite negative)
  | (_, ['n', 'a', 'n'])        => some .nan
  | _ =>
    match decimal? word with
    | some (.infinite false) => none
    | x                      => x

/-- The number of two digits, when it lies between the bounds. -/
def twoDigits? (low high : Nat) (a b : Char) : Option Nat :=
  if a.isDigit && b.isDigit then
    let n := ofDigits 10 [a, b]
    if low ≤ n && n ≤ high then some n else none
  else none

/-- The number of days of a month. -/
def monthLength (year month : Nat) : Nat :=
  if month = 2 then
    if year % 4 = 0 && (year % 100 ≠ 0 || year % 400 = 0) then 29 else 28
  else if month = 4 || month = 6 || month = 9 || month = 11 then 30 else 31

/-- A date at the front, and what follows it. -/
def date? : List Char → Option (List Char)
  | a :: b :: c :: d :: '-' :: e :: f :: '-' :: g :: h :: r => do
    if !(a.isDigit && b.isDigit && c.isDigit && d.isDigit) then none
    let month ← twoDigits? 1 12 e f
    let day ← twoDigits? 1 31 g h
    if day ≤ monthLength (ofDigits 10 [a, b, c, d]) month then some r else none
  | _ => none

/-- A time of day at the front, and what follows it. -/
def time? : List Char → Option (List Char)
  | a :: b :: ':' :: c :: d :: ':' :: e :: f :: r => do
    let _ ← twoDigits? 0 23 a b
    let _ ← twoDigits? 0 59 c d
    let _ ← twoDigits? 0 60 e f
    match r with
    | '.' :: g :: s => if g.isDigit then some (s.dropWhile Char.isDigit) else none
    | '.' :: []     => none
    | _             => some r
  | _ => none

/-- The distance from universal time, and nothing after it; it may be missing. -/
def isOffset : List Char → Bool
  | [] => true
  | ['Z'] | ['z'] => true
  | [s, a, b, ':', c, d] =>
    (s = '+' || s = '-') && (twoDigits? 0 23 a b).isSome && (twoDigits? 0 59 c d).isSome
  | _ => false

/-- A time of day with nothing after it but a distance from universal time. -/
def isTimeWithOffset (word : List Char) : Bool :=
  match time? word with
  | some r => isOffset r
  | none   => false

/-- A date, a time of day, or both. -/
def isMoment (word : List Char) : Bool :=
  match date? word with
  | some []       => true
  | some (t :: r) => (t = 'T' || t = 't') && isTimeWithOffset r
  | none          => time? word = some []

/-- The value of a word, if it has one. -/
def ofWord? (word : List Char) : Option Datum :=
  if word = ['t', 'r', 'u', 'e'] then some (.flag true)
  else if word = ['f', 'a', 'l', 's', 'e'] then some (.flag false)
  else if isMoment word then some .moment
  else match integer? word with
    | some n => some (.integer n)
    | none   => (real? word).map .real

/-- A number, a truth value, a date or a time. -/
def scalar? : Reader Datum
  | [] => none
  | c :: cs =>
    if isWordChar c then
      let word := c :: cs.takeWhile isWordChar
      let plain := (ofWord? word).map (·, Rest.dropWhile isWordChar cs)
      match h : cs.dropWhile isWordChar with
      | ' ' :: r =>
        let second := r.takeWhile isWordChar
        if date? word = some [] && !second.isEmpty then
          if isTimeWithOffset second then
            some (.moment, ⟨r.dropWhile isWordChar, Nat.lt_succ_of_lt
              (Nat.lt_of_le_of_lt (length_dropWhile_le isWordChar r) (lt_of_dropWhile_eq h))⟩)
          else none
        else plain
      | _ => plain
    else none

end PacketLog.Toml
