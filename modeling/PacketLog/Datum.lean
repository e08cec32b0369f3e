import PacketLog.Binary64

/-!
# Datum

A value of a configuration document, whatever the document is written in.  A table keeps its
entries in the order of the document, because the first fault in that order is the one reported.
-/

namespace PacketLog

/-- A value of a configuration document. -/
inductive Datum where
  | null
  | flag (b : Bool)
  | integer (n : Int)
  | real (x : Binary64)
  | text (s : String)
  /-- A date, a time of day or both.  No setting is one, so its digits are not kept. -/
  | moment
  | array (items : List Datum)
  | table (entries : List (String × Datum))
deriving Inhabited

end PacketLog
