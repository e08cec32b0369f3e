import PacketLog.Line.Bytes
import PacketLog.Line.Field

/-!
# Line — TextForm

The fields as text: each key with an equals sign and its value, parted by spaces.  A value that is
absent is a hyphen.  Texts are quoted, so neither spaces nor brackets inside them can be mistaken
for those of the line, and no line spans two.
-/

namespace PacketLog.Line

/-- The sign for what is absent. -/
def absentMark : List Char := ['-']

/-- A truth value as a word. -/
def flagWord (b : Bool) : List Char := if b then ['t', 'r', 'u', 'e'] else ['f', 'a', 'l', 's', 'e']

/-- A value without parts, as text. -/
def Atom.toText : Atom → List Char
  | .absent             => absentMark
  | .word s             => s.toList
  | .text s             => Text.quote s.toList
  | .bytes bs truncated =>
    match shownText? bs truncated with
    | some cs => Text.quote cs
    | none    => markedHex bs
  | .number n           => Nat.toDigits 10 n
  | .code c             => ['0', 'x'] ++ Text.hexByte c
  | .flag b             => flagWord b

/-- Items in brackets, parted by commas. -/
def bracketed (items : List (List Char)) : List Char :=
  '[' :: [','].intercalate items ++ [']']

/-- A value as text. -/
def Value.toText : Value → List Char
  | .atom a        => a.toText
  | .list as       => bracketed (as.map Atom.toText)
  | .filters fs    =>
    bracketed (fs.map fun (f, q) =>
      Text.quote f.toList ++ ':' :: (Atom.ofOption (.number ·.code) q).toText)
  | .properties ps =>
    bracketed (ps.map fun (k, v) => Text.quote k.toList ++ '=' :: Text.quote v.toList)

/-- A field as text. -/
def Field.toText (f : Field) : List Char := f.key.toList ++ '=' :: f.value.toText

/-- Fields as text. -/
def textForm (fs : List Field) : List Char := [' '].intercalate (fs.map Field.toText)

end PacketLog.Line
