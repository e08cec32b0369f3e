import PacketLog.Toml.Value

/-!
# Toml — Document

A whole document: a sequence of statements, each on a line of its own, and the tables they build.
`statements?` reads the lines and knows nothing of tables; `build?` enters the statements one by
one, the keys after a header belonging to the table it names.  `read?` is both, and gives
nothing when the text is not a document or contradicts itself.
-/

namespace PacketLog.Toml

open Text (Reader)

/-- A line that says something. -/
inductive Statement where
  /-- The keys that follow belong to the table of this name. -/
  | table (path : List String)
  /-- The keys that follow belong to a new table of the array of this name. -/
  | item (path : List String)
  | pair (names : List String) (d : Datum)

/-- A header, after its first bracket. -/
def header? : Reader Statement
  | '[' :: r =>
    match key? r with
    | some (ns, ⟨']' :: ']' :: left, shorter⟩) =>
      some (.item ns, ⟨left, Nat.lt_succ_of_lt (Nat.lt_of_succ_lt (Nat.lt_of_succ_lt shorter))⟩)
    | _ => none
  | r =>
    match key? r with
    | some (ns, ⟨']' :: left, shorter⟩) => some (.table ns, ⟨left, Nat.lt_of_succ_lt shorter⟩)
    | _                                 => none

/-- A header or a key and its value. -/
def statement? : Reader Statement
  | '[' :: r => (header? r).map fun (s, left) => (s, left.cons)
  | cs       => (pair? (value? nestingLimit) cs).map fun ((ns, d), left) => (.pair ns d, left)

/-- The text without the blanks at its front and a comment after them. -/
def skipAside (cs : List Char) : List Char := skipComment (skipBlank cs)

theorem length_skipAside_le (cs : List Char) : (skipAside cs).length ≤ cs.length :=
  Nat.le_trans (length_skipComment_le _) (length_skipBlank_le cs)

/-- The statements of a text after those in `done`, which are in reverse order.  There is one to a
line, and there may be empty lines and comments between them. -/
def statements? (done : List Statement) (cs : List Char) : Option (List Statement) :=
  match hb : skipAside cs with
  | []   => some done.reverse
  | body =>
    have : body.length ≤ cs.length := hb ▸ length_skipAside_le cs
    match lineBreak? body with
    | some ⟨left, _⟩ => statements? done left
    | none =>
      match statement? body with
      | none => none
      | some (s, ⟨rest, _⟩) =>
        match ha : skipAside rest with
        | []   => some (s :: done).reverse
        | tail =>
          have : tail.length ≤ rest.length := ha ▸ length_skipAside_le rest
          match lineBreak? tail with
          | some ⟨left, _⟩ => statements? (s :: done) left
          | none           => none
termination_by cs.length
decreasing_by all_goals omega

/-- The tables built so far and the path of the one that takes the next keys. -/
structure Builder where
  root   : Entries := []
  cursor : List String := []

/-- Enter a statement. -/
def Builder.enter (b : Builder) : Statement → Option Builder
  | .table path =>
    match path.getLast? with
    | some key =>
      (b.root.within path.dropLast (·.openTable key)).map ({ root := ·, cursor := path })
    | none     => none
  | .item path =>
    match path.getLast? with
    | some key => (b.root.within path.dropLast (·.openItem key)).map ({ root := ·, cursor := path })
    | none     => none
  | .pair names d =>
    (b.root.within b.cursor (·.enter names d)).map ({ b with root := · })

/-- The entries that a list of statements builds. -/
def build? (ss : List Statement) : Option Entries :=
  (ss.foldlM Builder.enter {}).map (·.root)

/-- The entries of a document.  A byte order mark at its front is passed over. -/
def read? (document : String) : Option (List (String × Datum)) := do
  let cs := match document.toList with
    | '\ufeff' :: r => r
    | cs            => cs
  let ss ← statements? [] cs
  (build? ss).map entryData

end PacketLog.Toml
