/-!
# Rounding

Quotients rounded to the nearest whole number.  Where two are equally near, the tie says which of
them it is.
-/

namespace PacketLog

/-- Which of two neighbouring numbers stands for one halfway between them. -/
inductive Tie where
  | even
  | up
deriving DecidableEq, Repr

/-- The number for what lies halfway between `q` and `q + 1`. -/
def Tie.pick (tie : Tie) (q : Nat) : Nat :=
  match tie with
  | .even => q + q % 2
  | .up   => q + 1

/-- A quotient rounded to the nearest whole number. -/
def roundDiv (tie : Tie) (num den : Nat) : Nat :=
  let q := num / den
  let r := num % den
  if 2 * r < den then q else if den < 2 * r then q + 1 else tie.pick q

theorem roundDiv_one (tie : Tie) (n : Nat) : roundDiv tie n 1 = n := by
  simp [roundDiv, Nat.mod_one]

/-- A common factor makes no difference. -/
theorem roundDiv_mul_left (tie : Tie) {c : Nat} (hc : 0 < c) (num den : Nat) :
    roundDiv tie (c * num) (c * den) = roundDiv tie num den := by
  have hlt (a b : Nat) : c * a < c * b ↔ a < b := Nat.mul_lt_mul_left hc
  simp only [roundDiv, Nat.mul_div_mul_left _ _ hc, Nat.mul_mod_mul_left, Nat.mul_left_comm 2 c,
    hlt]

/-- Equal quotients are rounded to equal numbers. -/
theorem roundDiv_congr (tie : Tie) {num den num' den' : Nat} (hd : 0 < den) (hd' : 0 < den')
    (h : num * den' = num' * den) : roundDiv tie num den = roundDiv tie num' den' := by
  calc roundDiv tie num den
      = roundDiv tie (den' * num) (den' * den) := (roundDiv_mul_left tie hd' num den).symm
    _ = roundDiv tie (den * num') (den * den') := by
        rw [Nat.mul_comm den' num, h, Nat.mul_comm num' den, Nat.mul_comm den' den]
    _ = roundDiv tie num' den' := roundDiv_mul_left tie hd num' den'

theorem roundDiv_le_succ (tie : Tie) (num den : Nat) : roundDiv tie num den ≤ num / den + 1 := by
  have hpick : tie.pick (num / den) ≤ num / den + 1 := by
    cases tie with
    | even => exact Nat.add_le_add_left (Nat.le_of_lt_succ (Nat.mod_lt _ Nat.two_pos)) _
    | up => exact Nat.le_refl _
  unfold roundDiv
  simp only
  split
  · exact Nat.le_succ _
  · split
    · exact Nat.le_refl _
    · exact hpick

/-- A quotient is not rounded beyond a whole number it does not exceed. -/
theorem roundDiv_le (tie : Tie) {num den m : Nat} (hd : 0 < den) (h : num ≤ m * den) :
    roundDiv tie num den ≤ m := by
  rcases Nat.lt_or_ge (num / den) m with hq | hq
  · exact Nat.le_trans (roundDiv_le_succ tie num den) hq
  · -- the quotient is the whole number itself
    have hn : num = m * den :=
      Nat.le_antisymm h (Nat.le_trans (Nat.mul_le_mul_right den hq) (Nat.div_mul_le_self num den))
    have hm : roundDiv tie num den = m := by
      rw [hn, roundDiv_congr tie hd Nat.one_pos (Nat.mul_one _), roundDiv_one]
    exact Nat.le_of_eq hm

/-- What is less than one half is rounded to nothing. -/
theorem roundDiv_eq_zero (tie : Tie) {num den : Nat} (h : 2 * num < den) :
    roundDiv tie num den = 0 := by
  have hlt : num < den := by omega
  simp [roundDiv, Nat.div_eq_of_lt hlt, Nat.mod_eq_of_lt hlt, h]

end PacketLog
