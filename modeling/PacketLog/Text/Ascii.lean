/-!
# Text — Ascii

Letters compared without regard to case, within ASCII.  Every other character, a letter or not,
is equal to itself only.
-/

namespace PacketLog.Text

/-- The text with its ASCII capitals made small. -/
def lowered (s : String) : String :=
  String.ofList (s.toList.map Char.toLower)

/-- The texts differ at most in the case of ASCII letters. -/
def sameLetters (a b : String) : Bool :=
  a.toList.map Char.toLower == b.toList.map Char.toLower

theorem sameLetters_iff {a b : String} :
    sameLetters a b = true ↔ a.toList.map Char.toLower = b.toList.map Char.toLower := by
  simp [sameLetters]

end PacketLog.Text
