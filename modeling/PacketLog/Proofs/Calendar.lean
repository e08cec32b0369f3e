import PacketLog.Instant

/-!
# Proofs — Calendar

What the text of a moment says.

* `Instant.days_civil`: the date of a day determines the day.
* `Instant.eq_of_text_eq`: moments with the same text are in the same millisecond.
* `Instant.isTimeChar_of_mem_text`: the text is made of digits, signs and a few letters, so that
  nothing has to be done to it in a line.
-/

namespace PacketLog.Instant

/-! ### Days and dates -/

/-- The number of days from the first of January 1970 to a date. -/
def Date.days (d : Date) : Int :=
  let year := d.year - if d.month ≤ 2 then 1 else 0
  let mp := if d.month ≤ 2 then d.month + 9 else d.month - 3
  let yoe := (year % 400).toNat
  year / 400 * 146097 + (365 * yoe + yoe / 4 - yoe / 100 : Nat) + ((153 * mp + 2) / 5 + d.day : Nat)
    - 719469

/-- A year of a cycle, and the day it begins on, from a day of the cycle. -/
theorem year_bounds {doe yoe : Nat} (h : doe < 146097)
    (hy : yoe = (doe - doe / 1460 + doe / 36524 - doe / 146096) / 365) :
    yoe ≤ 399 ∧ 365 * yoe + yoe / 4 - yoe / 100 ≤ doe ∧
      doe ≤ 365 * yoe + yoe / 4 - yoe / 100 + 365 := by
  have hlow : 365 * yoe + doe / 1460 + doe / 146096 ≤ doe + doe / 36524 := by omega
  have hhigh : doe + doe / 36524 ≤ 365 * yoe + doe / 1460 + doe / 146096 + 364 := by omega
  clear hy
  -- only the last day of the cycle is past its fourth century
  have hc : doe / 36524 = 4 ∧ doe = 146096 ∨ doe / 36524 ≤ 3 ∧ doe / 146096 = 0 := by omega
  rcases hc with ⟨hc, rfl⟩ | ⟨hc, hl⟩
  · omega
  · have hb : yoe / 4 ≤ doe / 1460 := by omega
    have hg : doe / 1460 ≤ yoe / 4 + 1 := by omega
    have he : yoe / 100 = doe / 36524 := by omega
    omega

/-- The date on a day of a year that begins in March, the `start` of which is given. -/
theorem days_of_march (era : Int) {yoe start doy : Nat}
    (hs : start = 365 * yoe + yoe / 4 - yoe / 100) (hy : yoe ≤ 399) (hd : doy ≤ 365) :
    let mp := (5 * doy + 2) / 153
    let month := if mp < 10 then mp + 3 else mp - 9
    Date.days ⟨yoe + era * 400 + (if month ≤ 2 then 1 else 0), month,
      doy - (153 * mp + 2) / 5 + 1⟩ = era * 146097 + start + doy - 719468 := by
  intro mp month
  have hm : mp ≤ 11 := by omega
  have hf : (153 * mp + 2) / 5 ≤ doy := by omega
  have hyear (e : Int) : yoe + era * 400 + e - e = yoe + era * 400 := by omega
  by_cases h : mp < 10
  · have hmonth : month = mp + 3 := if_pos h
    rw [hmonth, if_neg (by omega)]
    simp only [Date.days, if_neg (show ¬(mp + 3 ≤ 2) by omega), hyear]
    omega
  · have hmonth : month = mp - 9 := if_neg h
    rw [hmonth, if_pos (by omega)]
    simp only [Date.days, if_pos (show mp - 9 ≤ 2 by omega), hyear]
    omega

/-- **The date of a day determines the day.** -/
theorem days_civil (n : Int) : (civil n).days = n := by
  -- a cycle has four hundred years; `doe` is the day of the cycle and `yoe` the year of it
  obtain ⟨doe, hdoe⟩ : ∃ doe : Nat, doe = ((n + 719468).fmod 146097).toNat := ⟨_, rfl⟩
  obtain ⟨yoe, hyoe⟩ : ∃ yoe, yoe = (doe - doe / 1460 + doe / 36524 - doe / 146096) / 365 :=
    ⟨_, rfl⟩
  have hn : (n + 719468).fdiv 146097 * 146097 + doe = n + 719468 := by
    rw [hdoe, Int.fmod_eq_emod_of_nonneg _ (by decide), Int.fdiv_eq_ediv_of_nonneg _ (by decide)]
    omega
  have hlt : doe < 146097 := by
    rw [hdoe, Int.fmod_eq_emod_of_nonneg _ (by decide)]
    omega
  obtain ⟨hy, hlow, hhigh⟩ := year_bounds hlt hyoe
  obtain ⟨start, hs⟩ : ∃ start, start = 365 * yoe + yoe / 4 - yoe / 100 := ⟨_, rfl⟩
  have hd : doe - start ≤ 365 := by omega
  have hc := days_of_march ((n + 719468).fdiv 146097) hs hy hd
  have hd : (n + 719468).fdiv 146097 * 146097 + start + (doe - start : Nat) - 719468 = n := by
    omega
  rw [hd] at hc
  subst hs hyoe hdoe
  exact hc

/-! ### Numbers in a text -/

/-- Two runs of characters of one class, each followed by one of another class. -/
theorem eq_of_runs {p : Char → Bool} {a b x y : List Char} {c d : Char} (ha : ∀ e ∈ a, p e = true)
    (hb : ∀ e ∈ b, p e = true) (hc : p c = false) (hd : p d = false)
    (h : a ++ c :: x = b ++ d :: y) : a = b ∧ c :: x = d :: y := by
  have hw : (a ++ c :: x).takeWhile p = a := by
    rw [List.takeWhile_append_of_pos ha, List.takeWhile_cons_of_neg (by simp [hc]), List.append_nil]
  have hv : (b ++ d :: y).takeWhile p = b := by
    rw [List.takeWhile_append_of_pos hb, List.takeWhile_cons_of_neg (by simp [hd]), List.append_nil]
  obtain rfl : a = b := by rw [← hw, h, hv]
  exact ⟨rfl, List.append_cancel_left h⟩

theorem isDigit_of_mem_padded {w n : Nat} {c : Char} (h : c ∈ padded w n) : c.isDigit = true := by
  rcases List.mem_append.1 h with h | h
  · rw [List.eq_of_mem_replicate h]
    rfl
  · exact Nat.isDigit_of_mem_toDigits (by omega) (by omega) h

theorem ofDigitChars_padded (w n : Nat) : Nat.ofDigitChars 10 (padded w n) 0 = n := by
  unfold padded
  simp only [Nat.ofDigitChars_append, Nat.ofDigitChars_replicate_zero, Nat.mul_zero]
  exact Nat.ofDigitChars_ten_toDigits

/-- A number and what stands after it can be told apart. -/
theorem padded_append_inj {w n m : Nat} {x y : List Char} {c d : Char} (hc : c.isDigit = false)
    (hd : d.isDigit = false) (h : padded w n ++ c :: x = padded w m ++ d :: y) :
    n = m ∧ x = y := by
  obtain ⟨h₁, h₂⟩ := eq_of_runs (fun _ => isDigit_of_mem_padded) (fun _ => isDigit_of_mem_padded)
    hc hd h
  refine ⟨?_, (List.cons.inj h₂).2⟩
  rw [← ofDigitChars_padded w n, h₁, ofDigitChars_padded]

theorem exists_padded (w n : Nat) : ∃ c cs, padded w n = c :: cs ∧ c.isDigit = true := by
  cases h : padded w n with
  | nil =>
      obtain ⟨-, h⟩ := List.append_eq_nil_iff.1 h
      exact absurd h Nat.toDigits_ne_nil
  | cons c cs => exact ⟨c, cs, rfl, isDigit_of_mem_padded (h ▸ List.mem_cons_self)⟩

/-- A digit is no sign. -/
theorem padded_ne_sign {w n : Nat} {x y : List Char} {c : Char} (hc : c.isDigit = false) :
    padded w n ++ x ≠ c :: y := by
  intro h
  obtain ⟨d, ds, hp, hd⟩ := exists_padded w n
  rw [hp, List.cons_append] at h
  rw [(List.cons.inj h).1, hc] at hd
  cases hd

/-- The sign of a year that needs one. -/
def yearSign (year : Int) : Char := if year < 0 then '-' else '+'

theorem isDigit_yearSign (year : Int) : (yearSign year).isDigit = false := by
  unfold yearSign
  split <;> rfl

theorem yearText_cases (year : Int) :
    (0 ≤ year ∧ year ≤ 9999) ∧ yearText year = padded 4 year.toNat ∨
      ¬(0 ≤ year ∧ year ≤ 9999) ∧ yearText year = yearSign year :: padded 4 year.natAbs := by
  unfold yearText yearSign
  by_cases h : 0 ≤ year ∧ year ≤ 9999
  · exact .inl ⟨h, if_pos (by simpa using h)⟩
  · exact .inr ⟨h, if_neg (by simpa using h)⟩

theorem eq_of_yearSign_eq {a b : Int} (hs : yearSign a = yearSign b) (hn : a.natAbs = b.natAbs) :
    a = b := by
  unfold yearSign at hs
  split at hs
  · split at hs
    · omega
    · cases hs
  · split at hs
    · cases hs
    · omega

/-- A year and what stands after it can be told apart. -/
theorem yearText_append_inj {a b : Int} {x y : List Char}
    (h : yearText a ++ '-' :: x = yearText b ++ '-' :: y) : a = b ∧ x = y := by
  have hd : '-'.isDigit = false := rfl
  rcases yearText_cases a with ⟨ha, ea⟩ | ⟨ha, ea⟩
  · rcases yearText_cases b with ⟨hb, eb⟩ | ⟨hb, eb⟩
    · rw [ea, eb] at h
      obtain ⟨hn, hx⟩ := padded_append_inj hd hd h
      exact ⟨by omega, hx⟩
    · rw [ea, eb] at h
      exact absurd h (padded_ne_sign (isDigit_yearSign b))
  · rcases yearText_cases b with ⟨hb, eb⟩ | ⟨hb, eb⟩
    · rw [ea, eb] at h
      exact absurd h.symm (padded_ne_sign (isDigit_yearSign a))
    · rw [ea, eb] at h
      obtain ⟨hs, h⟩ := List.cons.inj h
      obtain ⟨hn, hx⟩ := padded_append_inj hd hd h
      exact ⟨eq_of_yearSign_eq hs hn, hx⟩

/-! ### The text of a moment -/

/-- The moment exists: its year has dates, and only the last second of a minute is a leap
second. -/
def IsMoment (t : Instant) : Prop := ofUnix? t.seconds t.nanos = some t

theorem IsMoment.nanos {t : Instant} (h : t.IsMoment) :
    t.nanos < 2000000000 ∧ (1000000000 ≤ t.nanos → t.seconds % 60 = 59) := by
  unfold IsMoment ofUnix? at h
  simp only [Option.ite_none_left_eq_some] at h
  obtain ⟨-, hn, hl, -⟩ := h
  refine ⟨Nat.lt_of_not_le hn, fun hm => ?_⟩
  rw [← Int.fmod_eq_emod_of_nonneg _ (by decide)]
  simpa [hm] using hl

/-- Whether the moment is in a leap second, as a number. -/
def leap (t : Instant) : Nat := if 1000000000 ≤ t.nanos then 1 else 0

/-- The second of its day, not counting a leap second. -/
def ofDay (t : Instant) : Nat := (t.seconds.fmod 86400).toNat

theorem seconds_eq (t : Instant) : t.seconds = 86400 * t.seconds.fdiv 86400 + t.ofDay := by
  unfold ofDay
  rw [Int.fmod_eq_emod_of_nonneg _ (by decide), Int.fdiv_eq_ediv_of_nonneg _ (by decide)]
  omega

/-- A leap second is the last of its minute. -/
theorem IsMoment.leap_cases {t : Instant} (h : t.IsMoment) :
    t.leap = 0 ∧ t.nanos < 1000000000 ∨
      t.leap = 1 ∧ (1000000000 ≤ t.nanos ∧ t.nanos < 2000000000) ∧ t.ofDay % 60 = 59 := by
  obtain ⟨hn, hl⟩ := h.nanos
  have hs := t.seconds_eq
  unfold leap
  by_cases h : 1000000000 ≤ t.nanos
  · rw [if_pos h]
    have := hl h
    omega
  · rw [if_neg h]
    omega

/-- The parts of the text of a moment, each with the sign that parts it from the next. -/
theorem toList_text (t : Instant) :
    let date := civil (t.seconds.fdiv 86400)
    t.text.toList = yearText date.year ++ '-' :: (padded 2 date.month ++ '-' ::
      (padded 2 date.day ++ 'T' :: (padded 2 (t.ofDay / 3600) ++ ':' ::
      (padded 2 (t.ofDay / 60 % 60) ++ ':' :: (padded 2 (t.ofDay % 60 + t.leap) ++ '.' ::
      (padded 3 ((t.nanos - 1000000000 * t.leap) / 1000000) ++ ['Z'])))))) := by
  simp only [text, ofDay, leap, String.toList_ofList, List.append_assoc, List.cons_append]

/-- **Moments with the same text are in the same millisecond.** -/
theorem eq_of_text_eq {t u : Instant} (ht : t.IsMoment) (hu : u.IsMoment) (h : t.text = u.text) :
    t.seconds = u.seconds ∧ t.nanos / 1000000 = u.nanos / 1000000 := by
  have hd : '-'.isDigit = false := rfl
  have hc : ':'.isDigit = false := rfl
  have h := congrArg String.toList h
  rw [toList_text, toList_text] at h
  obtain ⟨hyear, h⟩ := yearText_append_inj h
  obtain ⟨hmonth, h⟩ := padded_append_inj hd hd h
  obtain ⟨hday, h⟩ := padded_append_inj (c := 'T') (d := 'T') rfl rfl h
  obtain ⟨hhour, h⟩ := padded_append_inj hc hc h
  obtain ⟨hminute, h⟩ := padded_append_inj hc hc h
  obtain ⟨hsecond, h⟩ := padded_append_inj (c := '.') (d := '.') rfl rfl h
  obtain ⟨hmillis, -⟩ := padded_append_inj (c := 'Z') (d := 'Z') rfl rfl h
  -- the date gives the day, and the rest the time of the day
  have hdate : civil (t.seconds.fdiv 86400) = civil (u.seconds.fdiv 86400) := by
    cases hx : civil (t.seconds.fdiv 86400)
    cases hy : civil (u.seconds.fdiv 86400)
    simp only [hx, hy] at hyear hmonth hday
    rw [hyear, hmonth, hday]
  have hdays : t.seconds.fdiv 86400 = u.seconds.fdiv 86400 := by
    rw [← days_civil (t.seconds.fdiv 86400), hdate, days_civil]
  have hst := t.seconds_eq
  have hsu := u.seconds_eq
  rw [hdays] at hst
  -- only in a leap second does the second read sixty
  rcases ht.leap_cases with ⟨hlt, hnt⟩ | ⟨hlt, hnt, hot⟩
  · rcases hu.leap_cases with ⟨hlu, hnu⟩ | ⟨hlu, hnu, hou⟩
    · rw [hlt, hlu] at hsecond hmillis
      omega
    · omega
  · rcases hu.leap_cases with ⟨hlu, hnu⟩ | ⟨hlu, hnu, hou⟩
    · omega
    · rw [hlt, hlu] at hsecond hmillis
      omega

/-- A character that stands in the text of a moment. -/
def isTimeChar (c : Char) : Bool :=
  c.isDigit || c = '-' || c = '+' || c = ':' || c = '.' || c = 'T' || c = 'Z'

theorem isTimeChar_of_mem_padded {w n : Nat} {c : Char} (h : c ∈ padded w n) :
    isTimeChar c = true := by
  simp [isTimeChar, isDigit_of_mem_padded h]

theorem isTimeChar_of_mem_yearText {year : Int} {c : Char} (h : c ∈ yearText year) :
    isTimeChar c = true := by
  rcases yearText_cases year with ⟨-, e⟩ | ⟨-, e⟩
  · rw [e] at h
    exact isTimeChar_of_mem_padded h
  · rw [e] at h
    rcases List.mem_cons.1 h with rfl | h
    · unfold yearSign
      split <;> rfl
    · exact isTimeChar_of_mem_padded h

/-- **The text is made of digits, signs and two letters**, the second of which ends it. -/
theorem isTimeChar_of_mem_text (t : Instant) :
    (∀ c ∈ t.text.toList, isTimeChar c = true) ∧ 'Z' ∈ t.text.toList := by
  rw [toList_text]
  have number (w n : Nat) : ∀ c ∈ padded w n, isTimeChar c = true :=
    fun _ => isTimeChar_of_mem_padded
  refine ⟨?_, by simp⟩
  simp only [List.forall_mem_append, List.forall_mem_cons]
  exact ⟨fun _ => isTimeChar_of_mem_yearText, rfl, number _ _, rfl, number _ _, rfl, number _ _,
    rfl, number _ _, rfl, number _ _, rfl, number _ _, rfl, nofun⟩

end PacketLog.Instant
