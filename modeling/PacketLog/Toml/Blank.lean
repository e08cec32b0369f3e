import PacketLog.Text.Reader

/-!
# Toml — Blank

What carries no meaning: blanks within a line, comments, and line breaks.  Each of the functions
skips some of it at the front of a text, and none makes the text longer.
-/

namespace PacketLog.Toml

open Text (Rest length_dropWhile_le)

/-- A space or a tab. -/
def isBlank (c : Char) : Bool := c = ' ' || c = '\t'

/-- A character that may stand in a comment, and in a quoted text: all but the control
characters, of which the tab is admitted. -/
def isShown (c : Char) : Bool := c = '\t' || (' ' ≤ c && c ≠ '\x7f')

/-- The text without the blanks at its front. -/
def skipBlank (cs : List Char) : List Char := cs.dropWhile isBlank

theorem length_skipBlank_le (cs : List Char) : (skipBlank cs).length ≤ cs.length :=
  length_dropWhile_le isBlank cs

/-- What follows a line break at the front, which is a line feed, alone or after a carriage
return. -/
def lineBreak? : (cs : List Char) → Option (Rest cs)
  | '\n' :: r         => some (.tail r)
  | '\r' :: '\n' :: r => some (Rest.tail r).cons
  | _                 => none

/-- The text without a comment at its front. -/
def skipComment : List Char → List Char
  | '#' :: r => r.dropWhile isShown
  | cs       => cs

theorem length_skipComment_le (cs : List Char) : (skipComment cs).length ≤ cs.length := by
  unfold skipComment
  split
  · have := length_dropWhile_le isShown
    grind
  · exact Nat.le_refl _

/-- The text without the blanks and line breaks at its front. -/
def skipLines : List Char → List Char
  | '\r' :: '\n' :: r => skipLines r
  | c :: r            => if isBlank c || c = '\n' then skipLines r else c :: r
  | []                => []

theorem length_skipLines_le (cs : List Char) : (skipLines cs).length ≤ cs.length := by
  fun_induction skipLines cs <;> grind

/-- The text without the blanks, line breaks and comments at its front. -/
def skipGap : List Char → List Char
  | '#' :: r          => skipGap (r.dropWhile isShown)
  | '\r' :: '\n' :: r => skipGap r
  | c :: r            => if isBlank c || c = '\n' then skipGap r else c :: r
  | []                => []
termination_by cs => cs.length
decreasing_by
  · have := length_dropWhile_le isShown r; simp only [List.length_cons]; omega
  all_goals simp only [List.length_cons]; omega

theorem length_skipGap_le (cs : List Char) : (skipGap cs).length ≤ cs.length := by
  fun_induction skipGap cs with
  | case1 r ih =>
    have := length_dropWhile_le isShown r
    simp only [List.length_cons]
    omega
  | _ => grind

theorem lt_of_skipGap_eq {cs r : List Char} {c : Char} (h : skipGap cs = c :: r) :
    r.length < cs.length :=
  Nat.lt_of_lt_of_le (h ▸ Nat.lt_succ_self r.length) (length_skipGap_le cs)

end PacketLog.Toml
