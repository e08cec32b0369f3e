import PacketLog.Text.Hex

/-!
# Text — Quoted

A text between double quotes, on one line.  The quote and the backslash are preceded by a
backslash, line feed, carriage return and tab have a letter each, and any other control character
is spelled `\u` with its code point in braces.  Nothing else is changed, so the text can be read
back, and no quoted text contains a control character.
-/

namespace PacketLog.Text

/-- A control character: U+0000 to U+001F and U+007F to U+009F. -/
def isControl (c : Char) : Bool :=
  c.toNat < 0x20 || (0x7F ≤ c.toNat && c.toNat ≤ 0x9F)

/-- How a character stands inside the quotes. -/
def escapeChar (c : Char) : List Char :=
  if c = '"' then ['\\', '"']
  else if c = '\\' then ['\\', '\\']
  else if c = '\n' then ['\\', 'n']
  else if c = '\r' then ['\\', 'r']
  else if c = '\t' then ['\\', 't']
  else if isControl c then ['\\', 'u', '\x7b'] ++ hexNumber c.toNat ++ ['\x7d']
  else [c]

/-- The text between the quotes. -/
def escape (cs : List Char) : List Char := cs.flatMap escapeChar

/-- The text in its quotes. -/
def quote (cs : List Char) : List Char := '"' :: escape cs ++ ['"']

end PacketLog.Text
