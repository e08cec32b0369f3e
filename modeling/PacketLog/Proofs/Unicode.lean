import PacketLog.Line.Bytes

/-!
# Proofs — Unicode

What reading bytes as text leaves of them.

* `Text.Utf8.eq_of_decode`: the bytes are those of the characters read and those that are left,
  where reading stops at once.
* `Text.Utf8.incomplete_of_cut`: what is left where the bytes end inside a character is the
  beginning of one.
* `Text.Utf8.decode_bytesOf`: the bytes of characters are read as them.
* `Text.Utf8.encode_eq`: the bytes of a text are those of its characters.
* `Text.Utf8.encode_lt_encode`: texts are in the order of their bytes.
* `Line.eq_of_shownText?`: bytes that are shown as a text are those of the text, but for the
  beginning of a character at the end of a sample that has been cut off.
-/

namespace PacketLog.Text.Utf8

/-- The bytes of characters. -/
def bytesOf (cs : List Char) : List UInt8 := cs.flatMap String.utf8EncodeChar

/-- The beginning of a character, and not all of it. -/
def Incomplete (t : List UInt8) : Prop :=
  t ≠ [] ∧ ∃ c rest, rest ≠ [] ∧ String.utf8EncodeChar c = t ++ rest

/-! ### The bytes of one character -/

section Bytes

variable {a b c d : UInt8}

theorem toNat_val_ofNat {n : Nat} (h : n.isValidChar) : (Char.ofNat n).val.toNat = n := by
  have hn : n < UInt32.size := by
    simp only [Nat.isValidChar, UInt32.size] at *
    omega
  rw [Char.ofNat, dif_pos h]
  rfl

theorem ofNat_eq {n : Nat} (h : n = a.toNat) : UInt8.ofNat n = a := by
  rw [h, UInt8.ofNat_toNat]

theorem continues_iff : continues b = true ↔ 128 ≤ b.toNat ∧ b.toNat ≤ 191 := by
  simp [continues, UInt8.le_iff_toNat_le]

theorem leadsTwo_iff : leadsTwo a = true ↔ 194 ≤ a.toNat ∧ a.toNat ≤ 223 := by
  simp [leadsTwo, UInt8.le_iff_toNat_le]

theorem leadsThree_iff : leadsThree a = true ↔ 224 ≤ a.toNat ∧ a.toNat ≤ 239 := by
  simp [leadsThree, UInt8.le_iff_toNat_le]

theorem leadsFour_iff : leadsFour a = true ↔ 240 ≤ a.toNat ∧ a.toNat ≤ 244 := by
  simp [leadsFour, UInt8.le_iff_toNat_le]

/-- A second byte continues, and of the four leading bytes that have their own range it keeps to
that. -/
theorem secondOk_iff : secondOk a b = true ↔
    (128 ≤ b.toNat ∧ b.toNat ≤ 191) ∧ (a.toNat = 224 → 160 ≤ b.toNat) ∧
      (a.toNat = 237 → b.toNat ≤ 159) ∧ (a.toNat = 240 → 144 ≤ b.toNat) ∧
      (a.toNat = 244 → b.toNat ≤ 143) := by
  have lit (n : UInt8) : a = n ↔ a.toNat = n.toNat := UInt8.toNat_inj.symm
  unfold secondOk continues
  simp only [lit, UInt8.reduceToNat]
  -- the four leading bytes, and then all others
  split
  · simp [UInt8.le_iff_toNat_le]
    omega
  split
  · simp [UInt8.le_iff_toNat_le]
    omega
  split
  · simp [UInt8.le_iff_toNat_le]
    omega
  split
  · simp [UInt8.le_iff_toNat_le]
    omega
  · simp [UInt8.le_iff_toNat_le]
    omega

theorem bytes_one (h : a < 0x80) : String.utf8EncodeChar (Char.ofNat a.toNat) = [a] := by
  have ha : a.toNat < 128 := h
  unfold String.utf8EncodeChar
  rw [toNat_val_ofNat (.inl (by omega))]
  simp only
  rw [if_pos (by omega), UInt8.ofNat_toNat]

theorem bytes_two (ha : leadsTwo a = true) (hb : continues b = true) :
    String.utf8EncodeChar (Char.ofNat (a.toNat % 32 * 64 + low b)) = [a, b] := by
  rw [leadsTwo_iff] at ha
  rw [continues_iff] at hb
  unfold String.utf8EncodeChar low
  rw [toNat_val_ofNat (.inl (by omega))]
  simp only
  rw [if_neg (by omega), if_pos (by omega), ofNat_eq (a := a) (by omega),
    ofNat_eq (a := b) (by omega)]

theorem bytes_three (ha : leadsThree a = true) (hb : secondOk a b = true)
    (hc : continues c = true) :
    String.utf8EncodeChar (Char.ofNat (a.toNat % 16 * 4096 + low b * 64 + low c)) = [a, b, c] := by
  rw [leadsThree_iff] at ha
  rw [secondOk_iff] at hb
  rw [continues_iff] at hc
  obtain ⟨hb, h₁, h₂, -, -⟩ := hb
  have hv : (a.toNat % 16 * 4096 + low b * 64 + low c).isValidChar := by
    unfold low Nat.isValidChar
    omega
  unfold String.utf8EncodeChar
  rw [toNat_val_ofNat hv]
  unfold low
  simp only
  rw [if_neg (by omega), if_neg (by omega), if_pos (by omega), ofNat_eq (a := a) (by omega),
    ofNat_eq (a := b) (by omega), ofNat_eq (a := c) (by omega)]

theorem bytes_four (ha : leadsFour a = true) (hb : secondOk a b = true)
    (hc : continues c = true) (hd : continues d = true) :
    String.utf8EncodeChar
      (Char.ofNat (a.toNat % 8 * 262144 + low b * 4096 + low c * 64 + low d)) = [a, b, c, d] := by
  rw [leadsFour_iff] at ha
  rw [secondOk_iff] at hb
  rw [continues_iff] at hc hd
  obtain ⟨hb, -, -, h₁, h₂⟩ := hb
  have hv : (a.toNat % 8 * 262144 + low b * 4096 + low c * 64 + low d).isValidChar := by
    unfold low Nat.isValidChar
    omega
  unfold String.utf8EncodeChar
  rw [toNat_val_ofNat hv]
  unfold low
  simp only
  rw [if_neg (by omega), if_neg (by omega), if_neg (by omega), ofNat_eq (a := a) (by omega),
    ofNat_eq (a := b) (by omega), ofNat_eq (a := c) (by omega), ofNat_eq (a := d) (by omega)]

end Bytes

/-! ### One step of reading -/

section Step

variable {a b c : UInt8}

theorem leads_of_not_three (ha : (leadsThree a || leadsFour a) = true) (h : ¬leadsThree a = true) :
    leadsFour a = true :=
  (Bool.or_eq_true _ _ ▸ ha).resolve_left h

theorem exists_secondOk (a : UInt8) : ∃ b, secondOk a b = true := by
  by_cases h₁ : a.toNat = 224
  · exact ⟨0xA0, secondOk_iff.2 (by simp; omega)⟩
  by_cases h₂ : a.toNat = 240
  · exact ⟨0x90, secondOk_iff.2 (by simp; omega)⟩
  · exact ⟨0x80, secondOk_iff.2 (by simp; omega)⟩

/-- Three bytes that fit are a character or can be completed to one. -/
theorem exists_char (ha : (leadsThree a || leadsFour a) = true) (hb : secondOk a b = true)
    (hc : continues c = true) : ∃ x rest, String.utf8EncodeChar x = a :: b :: c :: rest := by
  by_cases h : leadsThree a = true
  · exact ⟨_, _, bytes_three h hb hc⟩
  · exact ⟨_, _, bytes_four (d := 0x80) (leads_of_not_three ha h) hb hc rfl⟩

/-- **All that one step of reading can do.** -/
theorem decode_step (bs : List UInt8) :
    (∃ c rest, bs = String.utf8EncodeChar c ++ rest ∧
      decode bs = (c :: (decode rest).1, (decode rest).2)) ∨
    (bs = [] ∧ decode bs = ([], .ended)) ∨
    (Incomplete bs ∧ decode bs = ([], .cut)) ∨
    decode bs = ([], .malformed) := by
  -- where bytes are missing, 0x80 is put in their place
  fun_cases decode bs with
  | case1 => exact .inr (.inl ⟨rfl, rfl⟩)
  | case2 a r ha cs stop h =>
      refine .inl ⟨_, r, ?_, by rw [h]⟩
      rw [bytes_one ha]
      rfl
  | case3 a _ ha =>
      exact .inr (.inr (.inl ⟨⟨by simp, _, _, by simp, bytes_two (b := 0x80) ha rfl⟩, rfl⟩))
  | case4 a _ ha b r hb cs stop h =>
      refine .inl ⟨_, r, ?_, by rw [h]⟩
      rw [bytes_two ha hb]
      rfl
  | case6 a _ _ ha =>
      obtain ⟨b, hb⟩ := exists_secondOk a
      obtain ⟨x, rest, hx⟩ := exists_char (c := 0x80) ha hb rfl
      exact .inr (.inr (.inl ⟨⟨by simp, x, b :: 0x80 :: rest, by simp, hx⟩, rfl⟩))
  | case7 a _ _ ha b hb =>
      obtain ⟨x, rest, hx⟩ := exists_char (c := 0x80) ha hb rfl
      exact .inr (.inr (.inl ⟨⟨by simp, x, 0x80 :: rest, by simp, hx⟩, rfl⟩))
  | case8 a _ _ _ b hb c r hc ha cs stop h =>
      refine .inl ⟨_, r, ?_, by rw [h]⟩
      rw [bytes_three ha hb hc]
      rfl
  | case9 a _ _ ha b hb c hc h3 =>
      exact .inr (.inr (.inl ⟨⟨by simp, _, _, by simp,
        bytes_four (d := 0x80) (leads_of_not_three ha h3) hb hc rfl⟩, rfl⟩))
  | case10 a _ _ ha b hb c hc h3 d r hd cs stop h =>
      refine .inl ⟨_, r, ?_, by rw [h]⟩
      rw [bytes_four (leads_of_not_three ha h3) hb hc hd]
      rfl
  | case5 | case11 | case12 | case13 | case14 => exact .inr (.inr (.inr rfl))

end Step

/-! ### What reading leaves -/

theorem bytesOf_cons (c : Char) (cs : List Char) :
    bytesOf (c :: cs) = String.utf8EncodeChar c ++ bytesOf cs :=
  List.flatMap_cons

/-- **The bytes are those of the characters read and those that are left**, where reading stops at
once. -/
theorem eq_of_decode {bs : List UInt8} {cs : List Char} {stop : Stop}
    (h : decode bs = (cs, stop)) : ∃ t, bs = bytesOf cs ++ t ∧ decode t = ([], stop) := by
  -- a step takes from one to four bytes off, so the induction is on their number
  induction hn : bs.length using Nat.strongRecOn generalizing bs cs with
  | ind n ih =>
      subst hn
      rcases decode_step bs with ⟨c, rest, hb, hd⟩ | ⟨-, hd⟩ | ⟨-, hd⟩ | hd
      · rw [hd, Prod.mk.injEq] at h
        obtain ⟨rfl, rfl⟩ := h
        have hl : rest.length < bs.length := by
          have := List.length_pos_iff.2 (String.utf8EncodeChar_ne_nil (c := c))
          rw [hb, List.length_append]
          omega
        obtain ⟨t, ht, hs⟩ := ih _ hl rfl rfl
        exact ⟨t, by rw [bytesOf_cons, List.append_assoc, ← ht, hb], hs⟩
      all_goals
        obtain ⟨rfl, rfl⟩ := Prod.mk.inj (hd.symm.trans h)
        exact ⟨bs, rfl, hd⟩

/-- Where the bytes end inside a character, its beginning is left. -/
theorem incomplete_of_cut {t : List UInt8} (h : decode t = ([], .cut)) : Incomplete t := by
  rcases decode_step t with ⟨c, rest, -, hd⟩ | ⟨-, hd⟩ | ⟨hi, -⟩ | hd
  · cases hd.symm.trans h
  · cases hd.symm.trans h
  · exact hi
  · cases hd.symm.trans h

/-- Where the bytes are used up, nothing is left. -/
theorem eq_nil_of_ended {t : List UInt8} (h : decode t = ([], .ended)) : t = [] := by
  rcases decode_step t with ⟨c, rest, -, hd⟩ | ⟨ht, -⟩ | ⟨-, hd⟩ | hd
  · cases hd.symm.trans h
  · exact ht
  · cases hd.symm.trans h
  · cases hd.symm.trans h

/-! ### Reading what has been written -/

section Written

variable {a b c d : UInt8}

theorem not_lt_of_le {n : Nat} (h : n ≤ a.toNat) (hn : 128 ≤ n) : ¬a < 0x80 := by
  intro hl
  have hl : a.toNat < 128 := hl
  omega

theorem decode_one (h : a < 0x80) (r : List UInt8) :
    decode (a :: r) = (Char.ofNat a.toNat :: (decode r).1, (decode r).2) := by
  rw [decode.eq_def]
  simp only [if_pos h]

theorem decode_two (ha : leadsTwo a = true) (hb : continues b = true) (r : List UInt8) :
    decode (a :: b :: r) =
      (Char.ofNat (a.toNat % 32 * 64 + low b) :: (decode r).1, (decode r).2) := by
  have h₁ : ¬a < 0x80 := not_lt_of_le (leadsTwo_iff.1 ha).1 (by decide)
  rw [decode.eq_def]
  simp only [if_neg h₁, if_pos ha, if_pos hb]

theorem decode_three (ha : leadsThree a = true) (hb : secondOk a b = true)
    (hc : continues c = true) (r : List UInt8) :
    decode (a :: b :: c :: r) =
      (Char.ofNat (a.toNat % 16 * 4096 + low b * 64 + low c) :: (decode r).1, (decode r).2) := by
  have hl := leadsThree_iff.1 ha
  have h₁ : ¬a < 0x80 := not_lt_of_le hl.1 (by decide)
  have h₂ : ¬leadsTwo a = true := by
    rw [leadsTwo_iff]
    omega
  have h : (leadsThree a || leadsFour a) = true := by rw [ha, Bool.true_or]
  rw [decode.eq_def]
  simp only [if_neg h₁, if_neg h₂, if_pos h, if_pos hb, if_pos hc, if_pos ha]

theorem decode_four (ha : leadsFour a = true) (hb : secondOk a b = true)
    (hc : continues c = true) (hd : continues d = true) (r : List UInt8) :
    decode (a :: b :: c :: d :: r) =
      (Char.ofNat (a.toNat % 8 * 262144 + low b * 4096 + low c * 64 + low d) :: (decode r).1,
        (decode r).2) := by
  have hl := leadsFour_iff.1 ha
  have h₁ : ¬a < 0x80 := not_lt_of_le hl.1 (by decide)
  have h₂ : ¬leadsTwo a = true := by
    rw [leadsTwo_iff]
    omega
  have h₃ : ¬leadsThree a = true := by
    rw [leadsThree_iff]
    omega
  have h : (leadsThree a || leadsFour a) = true := by rw [ha, Bool.or_true]
  rw [decode.eq_def]
  simp only [if_neg h₁, if_neg h₂, if_pos h, if_pos hb, if_pos hc, if_neg h₃, if_pos hd]

end Written

/-- **The bytes of a character are read as it**, whatever comes after them. -/
theorem decode_char (c : Char) (rest : List UInt8) :
    decode (String.utf8EncodeChar c ++ rest) = (c :: (decode rest).1, (decode rest).2) := by
  have hv : c.val.toNat < 55296 ∨ 57343 < c.val.toNat ∧ c.val.toNat < 1114112 := c.valid
  have hc {n : Nat} (h : n = c.val.toNat) : Char.ofNat n = c := by
    rw [h]
    exact Char.ofNat_toNat c
  unfold String.utf8EncodeChar
  generalize c.val.toNat = n at hc hv
  simp only
  -- one case for each number of bytes, in which the bytes are the digits of the code point
  split
  · simp only [List.cons_append, List.nil_append]
    rw [decode_one, hc]
    · simp
      omega
    · simp [UInt8.lt_iff_toNat_lt]
      omega
  split
  · simp only [List.cons_append, List.nil_append]
    rw [decode_two, hc]
    · simp [low]
      omega
    · simp [leadsTwo_iff]
      omega
    · simp [continues_iff]
      omega
  split
  · simp only [List.cons_append, List.nil_append]
    rw [decode_three, hc]
    · simp [low]
      omega
    · simp [leadsThree_iff]
      omega
    · simp [secondOk_iff]
      omega
    · simp [continues_iff]
      omega
  · simp only [List.cons_append, List.nil_append]
    rw [decode_four, hc]
    · simp [low]
      omega
    · simp [leadsFour_iff]
      omega
    · simp [secondOk_iff]
      omega
    · simp [continues_iff]
      omega
    · simp [continues_iff]
      omega

/-- The bytes of characters are read as them. -/
theorem decode_bytesOf (cs : List Char) : decode (bytesOf cs) = (cs, .ended) := by
  induction cs with
  | nil => rfl
  | cons c cs ih => rw [bytesOf_cons, decode_char, ih]

/-- Bytes spell a text only if they are its bytes. -/
theorem decode?_eq_some_iff {bs : List UInt8} {cs : List Char} :
    decode? bs = some cs ↔ bs = bytesOf cs := by
  unfold decode?
  constructor
  · intro h
    split at h
    · next ds hd =>
        cases h
        obtain ⟨t, hb, ht⟩ := eq_of_decode hd
        rw [hb, eq_nil_of_ended ht, List.append_nil]
    · cases h
  · rintro rfl
    rw [decode_bytesOf]

theorem toList_loop (bs : ByteArray) (i : Nat) (r : List UInt8) :
    ByteArray.toList.loop bs i r = r.reverse ++ bs.data.toList.drop i := by
  unfold ByteArray.toList.loop
  split
  · next h =>
      have hi : i < bs.data.toList.length := h
      have hget : bs.get! i = bs.data.toList[i] := getElem!_pos bs.data i h
      rw [toList_loop bs (i + 1), List.drop_eq_getElem_cons hi, hget, List.reverse_cons,
        List.append_assoc, List.singleton_append]
  · next h => rw [List.drop_eq_nil_of_le (Nat.le_of_not_lt h), List.append_nil]
termination_by bs.size - i

/-- The bytes of a text are those of its characters. -/
theorem encode_eq (s : String) : encode s = bytesOf s.toList := by
  unfold encode ByteArray.toList bytesOf
  rw [toList_loop, String.toUTF8_eq_toByteArray, ← String.utf8Encode_toList, List.utf8Encode,
    List.toList_data_toByteArray]
  rfl

theorem decode?_encode (s : String) : decode? (encode s) = some s.toList :=
  decode?_eq_some_iff.2 (encode_eq s)

/-! ### The order of texts -/

/-- Of two numbers the lesser one has the lesser digit where they first differ. -/
theorem digits_lt {n m : Nat} (h : n < m) : n / 262144 < m / 262144 ∨ n / 262144 = m / 262144 ∧
    (n / 4096 % 64 < m / 4096 % 64 ∨ n / 4096 % 64 = m / 4096 % 64 ∧
      (n / 64 % 64 < m / 64 % 64 ∨ n / 64 % 64 = m / 64 % 64 ∧ n % 64 < m % 64)) := by
  by_cases h₁ : n / 262144 = m / 262144
  · by_cases h₂ : n / 4096 = m / 4096
    · by_cases h₃ : n / 64 = m / 64
      · omega
      · omega
    · omega
  · omega

/-- The bytes of a lesser character are less, whatever comes after them. -/
theorem bytes_lt_bytes {c d : Char} (h : c < d) (r s : List UInt8) :
    String.utf8EncodeChar c ++ r < String.utf8EncodeChar d ++ s := by
  have hlt : c.val.toNat < d.val.toNat := UInt32.lt_iff_toNat_lt.1 h
  have hd : d.val.toNat < 55296 ∨ 57343 < d.val.toNat ∧ d.val.toNat < 1114112 := d.valid
  unfold String.utf8EncodeChar
  generalize c.val.toNat = n, d.val.toNat = m at hlt hd
  have hdigits := digits_lt hlt
  simp only
  -- one case for each two numbers of bytes, of which the greater character has the greater
  repeat' split
  all_goals
    simp (disch := omega) only [List.cons_append, List.nil_append, List.cons_lt_cons_iff,
      UInt8.lt_iff_toNat_lt, ← UInt8.toNat_inj, UInt8.toNat_ofNat', Nat.mod_eq_of_lt]
    omega

theorem bytesOf_lt_bytesOf {cs ds : List Char} (h : cs < ds) : bytesOf cs < bytesOf ds := by
  induction cs generalizing ds with
  | nil =>
      cases ds with
      | nil => cases h
      | cons d ds =>
          rw [bytesOf_cons]
          cases hd : String.utf8EncodeChar d with
          | nil => exact absurd hd String.utf8EncodeChar_ne_nil
          | cons b bs => exact List.nil_lt_cons b _
  | cons c cs ih =>
      cases ds with
      | nil => cases h
      | cons d ds =>
          rw [bytesOf_cons, bytesOf_cons]
          rcases List.cons_lt_cons_iff.1 h with hc | ⟨rfl, hs⟩
          · exact bytes_lt_bytes hc _ _
          · exact List.append_left_lt (ih hs)

/-- **Texts are in the order of their bytes.** -/
theorem encode_lt_encode {s t : String} (h : s < t) : encode s < encode t := by
  rw [encode_eq, encode_eq]
  exact bytesOf_lt_bytesOf (String.lt_iff.1 h)

end PacketLog.Text.Utf8

namespace PacketLog.Line

open Text.Utf8 (bytesOf Incomplete eq_of_decode incomplete_of_cut eq_nil_of_ended)

/-- **Bytes that are shown as a text are those of the text**, but for the beginning of a character
at the end of a sample that has been cut off. -/
theorem eq_of_shownText? {bs : List UInt8} {truncated : Bool} {cs : List Char}
    (h : shownText? bs truncated = some cs) :
    ∃ t, bs = bytesOf cs ++ t ∧ (t = [] ∨ truncated = true ∧ Incomplete t) := by
  unfold shownText? at h
  obtain ⟨h, -⟩ := Option.filter_eq_some_iff.1 h
  split at h
  · next ds hd =>
      cases h
      obtain ⟨t, hb, ht⟩ := eq_of_decode hd
      exact ⟨t, hb, .inl (eq_nil_of_ended ht)⟩
  · next ds hd =>
      split at h
      · next ht =>
          cases h
          obtain ⟨t, hb, hc⟩ := eq_of_decode hd
          exact ⟨t, hb, .inr ⟨ht, incomplete_of_cut hc⟩⟩
      · cases h
  · cases h

end PacketLog.Line
