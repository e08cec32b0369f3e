/-!
# Text — Reader

What a notation is read with.  A reader takes the characters that are left and gives what it read
with the characters after it, or nothing.  What comes after is shorter, and the result says so
(`Rest`): this is why a reader can be repeated until it fails (`many`).
-/

namespace PacketLog.Text

/-- What is left of a text when something has been read from its front. -/
abbrev Rest (cs : List Char) := { r : List Char // r.length < cs.length }

theorem length_dropWhile_le {α : Type} (p : α → Bool) (l : List α) :
    (l.dropWhile p).length ≤ l.length :=
  (List.dropWhile_sublist p).length_le

theorem lt_of_dropWhile_eq {α : Type} {p : α → Bool} {l r : List α} {a : α}
    (h : l.dropWhile p = a :: r) : r.length < l.length :=
  Nat.lt_of_lt_of_le (h ▸ Nat.lt_succ_self r.length) (length_dropWhile_le p l)

namespace Rest

/-- All but the first character. -/
def tail {c : Char} (cs : List Char) : Rest (c :: cs) := ⟨cs, Nat.lt_succ_self _⟩

/-- What is left of the end of a text, as something left of the text. -/
def of {part cs : List Char} (r : Rest part) (h : part.length ≤ cs.length) : Rest cs :=
  ⟨r.1, Nat.lt_of_lt_of_le r.2 h⟩

/-- What is left of a text, as something left of the text with a character in front. -/
def cons {c : Char} {cs : List Char} (r : Rest cs) : Rest (c :: cs) := r.of (Nat.le_succ _)

/-- All but the first character and those after it for which `p` holds. -/
def dropWhile {c : Char} (p : Char → Bool) (cs : List Char) : Rest (c :: cs) :=
  ⟨cs.dropWhile p, Nat.lt_succ_of_le (length_dropWhile_le p cs)⟩

end Rest

/-- Reads a value from the front of a text. -/
abbrev Reader (α : Type) := (cs : List Char) → Option (α × Rest cs)

/-- The values `item` reads one after the other, after those in `done`, which are in reverse order,
and what is left. -/
def many {α : Type} (item : Reader α) (done : List α) (cs : List Char) : List α × List Char :=
  match item cs with
  | none           => (done.reverse, cs)
  | some (a, rest) => many item (a :: done) rest.1
termination_by cs.length
decreasing_by exact rest.2

theorem length_many_le {α : Type} (item : Reader α) (done : List α) (cs : List Char) :
    (many item done cs).2.length ≤ cs.length := by
  fun_induction many item done cs with
  | case1 => exact Nat.le_refl _
  | case2 _ _ _ rest _ ih => exact Nat.le_trans ih (Nat.le_of_lt rest.2)

/-- The characters up to a closing quote, with `char?` for each. -/
def closedBy (quote : Char) (char? : Reader Char) : Reader (List Char) := fun cs =>
  match h : many char? [] cs with
  | (_, [])           => none
  | (text, q :: rest) =>
    if q = quote then some (text, ⟨rest, by
      have bound := length_many_le char? [] cs
      rw [h] at bound
      exact bound⟩)
    else none

end PacketLog.Text
