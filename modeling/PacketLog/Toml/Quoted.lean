import PacketLog.Text.Hex
import PacketLog.Toml.Blank

/-!
# Toml — Quoted

The four forms of a quoted text.  Between double quotes a backslash begins an escape; between
single quotes nothing does.  Tripled quotes admit line breaks: one directly after the opening
quotes is dropped, every other is a line feed whatever it was written as, and up to two quotes
may stand before the closing ones.
-/

namespace PacketLog.Toml

open Text (Reader Rest many length_many_le closedBy)

/-- The character whose code point the digits give, unless they give none. -/
def codePoint? (ds : List Char) : Option Char := do
  let n ← Text.hexNumber? ds
  if h : n.isValidChar then some (Char.ofNatAux n h) else none

/-- What an escape of one letter stands for. -/
def shortEscape? : Char → Option Char
  | 'b'  => some '\x08'
  | 't'  => some '\t'
  | 'n'  => some '\n'
  | 'f'  => some '\x0c'
  | 'r'  => some '\r'
  | '"'  => some '"'
  | '\\' => some '\\'
  | _    => none

/-- The character whose code point is given in `count` digits. -/
def codeEscape? (count : Nat) (first : Char) (r : List Char) : Option (Char × Rest (first :: r)) :=
  let ds := r.take count
  if ds.length < count then none
  else (codePoint? ds).map (·, ⟨r.drop count, by
    simp only [List.length_drop, List.length_cons]
    omega⟩)

/-- The character of an escape, after its backslash. -/
def escape? : Reader Char
  | 'u' :: r => codeEscape? 4 'u' r
  | 'U' :: r => codeEscape? 8 'U' r
  | c :: r   => (shortEscape? c).map (·, .tail r)
  | []       => none

/-- A character of a text in double quotes. -/
def basicChar? : Reader Char
  | '\\' :: r => (escape? r).map fun (c, left) => (c, left.cons)
  | c :: r    => if isShown c && c ≠ '"' then some (c, .tail r) else none
  | []        => none

/-- A character of a text in single quotes. -/
def literalChar? : Reader Char
  | c :: r => if isShown c && c ≠ '\'' then some (c, .tail r) else none
  | []     => none

/-- What follows a line break that is escaped, which joins the lines: it stands for nothing, with
the blanks and line breaks after it. -/
def joinedLines? (cs : List Char) : Option (Rest cs) :=
  (lineBreak? (skipBlank cs)).map fun r =>
    ⟨skipLines r.1, by
      have := length_skipLines_le r.1
      have := length_skipBlank_le cs
      have := r.2
      omega⟩

/-- A piece of a text in tripled quotes, `quote` being the quote and `char?` a character of the
text in single ones. -/
def blockPiece? (quote : Char) (char? : Reader Char) : Reader (List Char) := fun cs =>
  match lineBreak? cs with
  | some r => some (['\n'], r)
  | none =>
    match cs with
    | '\\' :: r =>
      if quote = '"' then
        match joinedLines? r with
        | some left => some ([], left.cons)
        | none      => (escape? r).map fun (c, left) => ([c], left.cons)
      else some (['\\'], .tail r)
    | a :: b :: c :: r =>
      if a = quote then
        if b = quote && c = quote then none else some ([quote], .tail (b :: c :: r))
      else (char? (a :: b :: c :: r)).map fun (x, left) => ([x], left)
    | cs => (char? cs).map fun (x, left) => ([x], left)

/-- The text up to its closing tripled quotes. -/
def blockClosedBy (quote : Char) (char? : Reader Char) : Reader (List Char) := fun cs =>
  let body := ((lineBreak? cs).map (·.1)).getD cs
  let read := many (blockPiece? quote char?) [] body
  let quotes := (read.2.takeWhile (· = quote)).length
  if h : quotes < 3 then none
  else
    let extra := min (quotes - 3) 2
    some (read.1.flatten ++ List.replicate extra quote, ⟨read.2.drop (extra + 3), by
      have : quotes ≤ read.2.length := (List.takeWhile_prefix _).length_le
      have : read.2.length ≤ body.length := length_many_le _ [] body
      have : body.length ≤ cs.length := by
        cases hb : lineBreak? cs with
        | none   => simp only [body, hb, Option.map_none, Option.getD_none, Nat.le_refl]
        | some r =>
          simp only [body, hb, Option.map_some, Option.getD_some]
          exact Nat.le_of_lt r.2
      simp only [List.length_drop]
      omega⟩)

/-- A text in quotes on one line. -/
def quoted? : Reader String
  | '"' :: r  =>
    (closedBy '"' basicChar? r).map fun (t, left) => (String.ofList t, left.cons)
  | '\'' :: r =>
    (closedBy '\'' literalChar? r).map fun (t, left) => (String.ofList t, left.cons)
  | _         => none

/-- A text in quotes of any form. -/
def text? : Reader String
  | '"' :: '"' :: '"' :: r =>
    (blockClosedBy '"' basicChar? r).map fun (t, left) =>
      (String.ofList t, left.cons.cons.cons)
  | '\'' :: '\'' :: '\'' :: r =>
    (blockClosedBy '\'' literalChar? r).map fun (t, left) =>
      (String.ofList t, left.cons.cons.cons)
  | cs => quoted? cs

end PacketLog.Toml
