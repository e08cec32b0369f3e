/-!
# Text — Utf8

Bytes read as UTF-8.  `decode` gives the characters of the longest prefix that consists of whole
characters and says why it stopped: the bytes were used up, they end inside a character that
could still be completed, or they cannot be continued to a character at all.

Only the shortest encoding of a code point counts, and surrogates have none: the range the second
byte may lie in depends on the first (`secondOk`).
-/

namespace PacketLog.Text.Utf8

/-- Why reading stopped. -/
inductive Stop where
  /-- Every byte belongs to a character. -/
  | ended
  /-- The bytes end inside a character. -/
  | cut
  /-- The next bytes begin no character. -/
  | malformed
deriving DecidableEq, Repr

/-- A byte after the first of a character. -/
def continues (b : UInt8) : Bool := 0x80 ≤ b && b ≤ 0xBF

/-- The first byte of a character of two bytes. -/
def leadsTwo (a : UInt8) : Bool := 0xC2 ≤ a && a ≤ 0xDF

/-- The first byte of a character of three bytes. -/
def leadsThree (a : UInt8) : Bool := 0xE0 ≤ a && a ≤ 0xEF

/-- The first byte of a character of four bytes. -/
def leadsFour (a : UInt8) : Bool := 0xF0 ≤ a && a ≤ 0xF4

/-- The second byte fits the first, which leads three or four. -/
def secondOk (a b : UInt8) : Bool :=
  if a = 0xE0 then 0xA0 ≤ b && b ≤ 0xBF
  else if a = 0xED then 0x80 ≤ b && b ≤ 0x9F
  else if a = 0xF0 then 0x90 ≤ b && b ≤ 0xBF
  else if a = 0xF4 then 0x80 ≤ b && b ≤ 0x8F
  else continues b

/-- The six payload bits of a continuation byte. -/
def low (b : UInt8) : Nat := b.toNat % 64

/-- The characters of the longest prefix of whole characters, and why it ends. -/
def decode : List UInt8 → List Char × Stop
  | [] => ([], .ended)
  | a :: r₁ =>
    if a < 0x80 then
      let (cs, stop) := decode r₁
      (Char.ofNat a.toNat :: cs, stop)
    else if leadsTwo a then
      match r₁ with
      | []      => ([], .cut)
      | b :: r₂ =>
        if continues b then
          let (cs, stop) := decode r₂
          (Char.ofNat (a.toNat % 32 * 64 + low b) :: cs, stop)
        else ([], .malformed)
    else if leadsThree a || leadsFour a then
      match r₁ with
      | []      => ([], .cut)
      | b :: r₂ =>
        if secondOk a b then
          match r₂ with
          | []      => ([], .cut)
          | c :: r₃ =>
            if continues c then
              if leadsThree a then
                let (cs, stop) := decode r₃
                (Char.ofNat (a.toNat % 16 * 4096 + low b * 64 + low c) :: cs, stop)
              else
                match r₃ with
                | []      => ([], .cut)
                | d :: r₄ =>
                  if continues d then
                    let (cs, stop) := decode r₄
                    (Char.ofNat
                      (a.toNat % 8 * 262144 + low b * 4096 + low c * 64 + low d) :: cs, stop)
                  else ([], .malformed)
            else ([], .malformed)
        else ([], .malformed)
    else ([], .malformed)

/-- The text the bytes spell, when they spell one. -/
def decode? (bs : List UInt8) : Option (List Char) :=
  match decode bs with
  | (cs, .ended) => some cs
  | _            => none

/-- The bytes of a text. -/
def encode (s : String) : List UInt8 := s.toUTF8.toList

end PacketLog.Text.Utf8
