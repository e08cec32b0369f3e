import PacketLog.Datum

/-!
# Toml — Table

Tables as a document builds them.  A node remembers how it came about, because that decides what
may still be added to it: a table that a header opened takes no keys from elsewhere, one that
only the headers of its parts imply may still be opened once, and one that a dotted key made may
be continued by dotted keys alone.

`assign` enters a value under a dotted key, `openTable` and `openItem` act on the two kinds of
headers, and `within` goes to the table a header names.  Each fails when the document contradicts
itself.  A table opened after its parts moves to the end of the table it stands in.
-/

namespace PacketLog.Toml

/-- How a table came about. -/
inductive Origin where
  /-- A header of its own. -/
  | opened
  /-- The header of a part of it. -/
  | implied
  /-- A dotted key. -/
  | dotted
deriving DecidableEq, Repr

/-- A value, a table, or an array of tables that headers fill. -/
inductive Node where
  | value (d : Datum)
  | table (origin : Origin) (entries : List (String × Node))
  /-- An array of tables: the last of them, and those before it in reverse order. -/
  | tables (last : List (String × Node)) (earlier : List (List (String × Node)))

/-- Named nodes in the order of the document. -/
abbrev Entries := List (String × Node)

mutual

/-- The value a node stands for. -/
def Node.toDatum : Node → Datum
  | .value d             => d
  | .table _ es          => .table (entryData es)
  | .tables last earlier => .array (itemData earlier [.table (entryData last)])

/-- The values of named nodes. -/
def entryData : List (String × Node) → List (String × Datum)
  | []          => []
  | (k, n) :: r => (k, n.toDatum) :: entryData r

/-- The values of a list of tables, which is in reverse order, in front of those in `later`. -/
def itemData : List (List (String × Node)) → List Datum → List Datum
  | [], later      => later
  | es :: r, later => itemData r (.table (entryData es) :: later)

end

namespace Entries

/-- The entries with `n` under the name `k`, at its place or at the end. -/
def put (k : String) (n : Node) : Entries → Entries
  | []            => [(k, n)]
  | (k', n') :: r => if k' = k then (k, n) :: r else (k', n') :: put k n r

/-- The entries without the name `k`. -/
def remove (k : String) (es : Entries) : Entries := es.filter (·.1 ≠ k)

/-- Enter a value under a dotted key, `path` being its names but the last. -/
def assign (path : List String) (key : String) (d : Datum) (es : Entries) : Option Entries :=
  match path with
  | [] => if (es.lookup key).isSome then none else some (es ++ [(key, .value d)])
  | p :: ps =>
    match es.lookup p with
    | none => (assign ps key d []).map fun sub => es ++ [(p, .table .dotted sub)]
    | some (.table origin sub) =>
      if origin = .opened || (ps.isEmpty && origin ≠ .dotted) then none
      else (assign ps key d sub).map fun sub => es.put p (.table origin sub)
    | some (.tables last earlier) =>
      if ps.isEmpty then none
      else (assign ps key d last).map fun last => es.put p (.tables last earlier)
    | some (.value _) => none

/-- Act on the table under `path`.  Tables missing on the way are implied, and an array of tables
is entered at its last. -/
def within (path : List String) (act : Entries → Option Entries) (es : Entries) :
    Option Entries :=
  match path with
  | [] => act es
  | p :: ps =>
    match es.lookup p with
    | none => (within ps act []).map fun sub => es ++ [(p, .table .implied sub)]
    | some (.table origin sub) =>
      (within ps act sub).map fun sub => es.put p (.table origin sub)
    | some (.tables last earlier) =>
      (within ps act last).map fun last => es.put p (.tables last earlier)
    | some (.value _) => none

/-- Open the table `key`, which only headers of its parts may have mentioned. -/
def openTable (key : String) (es : Entries) : Option Entries :=
  match es.lookup key with
  | none                       => some (es ++ [(key, .table .opened [])])
  | some (.table .implied sub) => some (es.remove key ++ [(key, .table .opened sub)])
  | some _                     => none

/-- Add a table to the array `key` of tables. -/
def openItem (key : String) (es : Entries) : Option Entries :=
  match es.lookup key with
  | none                        => some (es ++ [(key, .tables [] [])])
  | some (.tables last earlier) => some (es.put key (.tables [] (last :: earlier)))
  | some _                      => none

end Entries

end PacketLog.Toml
