import PacketLog.Text.Hex
import PacketLog.Text.Printable

/-!
# Text — Literal

A text as it is cited in a message: between double quotes, with everything that would not show
spelled out.  It differs from `Text.quote` in what it spells out, which is every hidden character
and not the controls alone, and in the short form of NUL.
-/

namespace PacketLog.Text

/-- How a character stands inside a citation. -/
def citeChar (c : Char) : List Char :=
  if c = '\x00' then ['\\', '0']
  else if c = '\t' then ['\\', 't']
  else if c = '\r' then ['\\', 'r']
  else if c = '\n' then ['\\', 'n']
  else if c = '"' then ['\\', '"']
  else if c = '\\' then ['\\', '\\']
  else if isHidden c then ['\\', 'u', '\x7b'] ++ hexNumber c.toNat ++ ['\x7d']
  else [c]

/-- The text cited between double quotes. -/
def cite (s : String) : String :=
  String.ofList ('"' :: s.toList.flatMap citeChar ++ ['"'])

end PacketLog.Text
