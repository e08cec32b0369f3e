import PacketLog.Rounding

/-!
# Binary64

Numbers of double precision, kept exactly: a sign, a whole significand and a power of two.
`ofDecimal` rounds a decimal number to the nearest of them, a tie going to the even significand.
`shortest` is the way back: of the decimal numbers that round to a value it takes one with the
fewest digits, and of those the nearest.

Two spellings are built on it.  `positional` never uses an exponent, and of two shortest decimal
numbers that are equally near it takes the one farther from zero.  `scientific` uses an exponent
outside the range from 10⁻⁵ to 10¹⁶, and takes the one that ends in an even digit.
-/

namespace PacketLog

/-- A number of double precision. -/
inductive Binary64 where
  | nan
  | infinite (negative : Bool)
  /-- The number `± significand * 2 ^ exponent`. -/
  | finite (negative : Bool) (significand : Nat) (exponent : Int)
deriving DecidableEq, Repr

namespace Binary64

/-- The exponent of the smallest positive number. -/
def leastExponent : Int := -1074

/-- The exponent of the largest finite number. -/
def greatestExponent : Int := 971

/-- The fraction `num / den` divided by `b ^ e`, as a fraction. -/
def scaleDown (b num den : Nat) (e : Int) : Nat × Nat :=
  if 0 ≤ e then (num, den * b.pow e.toNat) else (num * b.pow (-e).toNat, den)

/-- The number that sixty-four bits stand for: a sign, eleven bits of exponent and the fraction. -/
def ofBits (bits : UInt64) : Binary64 :=
  let negative := Nat.pow 2 63 ≤ bits.toNat
  let biased := bits.toNat / Nat.pow 2 52 % 2048
  let fraction := bits.toNat % Nat.pow 2 52
  if biased = 2047 then if fraction = 0 then .infinite negative else .nan
  else if biased = 0 then .finite negative fraction leastExponent
  else .finite negative (fraction + Nat.pow 2 52) (biased - 1075)

/-- The positive fraction `num / den` rounded to double precision. -/
def ofFraction (negative : Bool) (num den : Nat) : Binary64 :=
  let low : Int := max (num.log2 - den.log2 - 53 : Int) leastExponent
  let (n, d) := scaleDown 2 num den low
  let e := if Nat.pow 2 53 ≤ n / d then low + 1 else low
  let (n, d) := scaleDown 2 num den e
  let s := roundDiv .even n d
  let (s, e) := if s = Nat.pow 2 53 then (Nat.pow 2 52, e + 1) else (s, e)
  if greatestExponent < e then .infinite negative else .finite negative s e

/-- The decimal number `± digits * 10 ^ scale`, rounded. -/
def ofDecimal (negative : Bool) (digits : Nat) (scale : Int) : Binary64 :=
  let size : Int := (Nat.toDigits 10 digits).length + scale
  if digits = 0 || size < -400 then .finite negative 0 leastExponent
  else if 400 < size then .infinite negative
  else
    let (n, d) := scaleDown 10 digits 1 (-scale)
    ofFraction negative n d

/-- The least `k` with `num / den < 10 ^ k`, for a positive fraction. -/
def magnitude (num den : Nat) : Int :=
  if den ≤ num then (Nat.toDigits 10 (num / den)).length
  else
    let t := den / num
    let k : Int := (Nat.toDigits 10 t).length - 1
    if den % num = 0 && t = Nat.pow 10 k.toNat then 1 - k else -k

/-- The digits and the power of ten of a shortest decimal number that rounds to
`significand * 2 ^ exponent`, which is not zero. -/
def shortest (tie : Tie) (significand : Nat) (exponent : Int) : Nat × Int :=
  let (num, den) := scaleDown 2 significand 1 (-exponent)
  -- The numbers that round to the value lie between `low / den4` and `high / den4`.
  let den4 := 4 * den
  let unit := if 0 ≤ exponent then Nat.pow 2 exponent.toNat else 1
  -- Below a power of two the numbers stand twice as close.
  let narrow := significand = Nat.pow 2 52 && leastExponent < exponent
  let low := 4 * num - (if narrow then 1 else 2) * unit
  let high := 4 * num + 2 * unit
  let closed := significand % 2 = 0
  let inside (n d : Nat) : Bool :=
    if closed then low * d ≤ n * den4 && n * den4 ≤ high * d
    else low * d < n * den4 && n * den4 < high * d
  let size := magnitude num den
  let candidate (count : Nat) : Option (Nat × Int) :=
    let p : Int := size - count
    let (n, d) := scaleDown 10 num den p
    let below := n / d
    let value (g : Nat) : Nat × Nat := scaleDown 10 g 1 (-p)
    let fits (g : Nat) : Bool := inside (value g).1 (value g).2
    -- A neighbour above that has one digit more is a power of ten.
    let found (g : Nat) : Nat × Int := if g = Nat.pow 10 count then (1, size) else (g, p)
    match fits below, fits (below + 1) with
    | true, true  => some (found (roundDiv tie n d))
    | true, false => some (found below)
    | false, true => some (found (below + 1))
    | false, false => none
  ((List.range 17).findSome? fun i => candidate (i + 1)).getD (0, 0)

/-- Decimal digits with the point after the first `point` of them. -/
def placePoint (digits : List Char) (point : Int) : List Char :=
  if (digits.length : Int) ≤ point then
    digits ++ List.replicate (point.toNat - digits.length) '0' ++ ['.', '0']
  else if 0 < point then
    digits.take point.toNat ++ '.' :: digits.drop point.toNat
  else
    '0' :: '.' :: List.replicate (-point).toNat '0' ++ digits

/-- A way to write numbers. -/
structure Spelling where
  /-- Which of two shortest decimal numbers is taken when they are equally near. -/
  tie    : Tie
  /-- The text of digits, when so many of them stand before the point. -/
  layout : List Char → Int → List Char

/-- The text of a number. -/
def Spelling.text (sp : Spelling) : Binary64 → String
  | .nan            => "NaN"
  | .infinite neg   => if neg then "-inf" else "inf"
  | .finite neg s e =>
    let (digits, p) := if s = 0 then (0, 0) else shortest sp.tie s e
    let ds := Nat.toDigits 10 digits
    String.ofList ((if neg then ['-'] else []) ++ sp.layout ds (ds.length + p))

/-- Every digit written out, with at least one on each side of the point. -/
def positional : Spelling where
  tie    := .up
  layout := placePoint

/-- Digits and point for numbers of moderate size, a signed exponent for the others. -/
def scientific : Spelling where
  tie := .even
  layout ds point :=
    if -5 < point && point ≤ 16 then placePoint ds point
    else
      let power := point - 1
      ds.take 1 ++ (if ds.length = 1 then [] else '.' :: ds.drop 1) ++
        'e' :: (if power < 0 then '-' else '+') :: Nat.toDigits 10 power.natAbs

end Binary64

end PacketLog
