import PacketLog.Text.Hex

/-!
# Json

Values of the data format of that name and their shortest spelling: no blanks, objects in the
order in which their members are given, and in a string an escape only where the format demands
one.
-/

namespace PacketLog

/-- A value whose numbers are natural. -/
inductive Json where
  | null
  | flag (b : Bool)
  | number (n : Nat)
  | string (cs : List Char)
  | array (items : List Json)
  | object (members : List (String × Json))

namespace Json

/-- How a character stands inside a string. -/
def escapeChar (c : Char) : List Char :=
  if c = '"' then ['\\', '"']
  else if c = '\\' then ['\\', '\\']
  else if c = '\x08' then ['\\', 'b']
  else if c = '\t' then ['\\', 't']
  else if c = '\n' then ['\\', 'n']
  else if c = '\x0c' then ['\\', 'f']
  else if c = '\r' then ['\\', 'r']
  else if c.toNat < 0x20 then
    ['\\', 'u', '0', '0', Text.hexDigit (c.toNat / 16), Text.hexDigit (c.toNat % 16)]
  else [c]

/-- A string between its quotes. -/
def quote (cs : List Char) : List Char := '"' :: cs.flatMap escapeChar ++ ['"']

mutual

/-- The spelling of a value. -/
def render : Json → List Char
  | .null           => ['n', 'u', 'l', 'l']
  | .flag true      => ['t', 'r', 'u', 'e']
  | .flag false     => ['f', 'a', 'l', 's', 'e']
  | .number n       => Nat.toDigits 10 n
  | .string cs      => quote cs
  | .array items    => '[' :: renderItems items ++ [']']
  | .object members => '\x7b' :: renderMembers members ++ ['\x7d']

/-- The spelling of the items of an array, parted by commas. -/
def renderItems : List Json → List Char
  | []           => []
  | [v]          => v.render
  | v :: w :: vs => v.render ++ ',' :: renderItems (w :: vs)

/-- The spelling of the members of an object, parted by commas. -/
def renderMembers : List (String × Json) → List Char
  | []                => []
  | [(k, v)]          => quote k.toList ++ ':' :: v.render
  | (k, v) :: m :: ms => quote k.toList ++ ':' :: v.render ++ ',' :: renderMembers (m :: ms)

end

end Json

end PacketLog
