import PacketLog.Proofs.Reading

/-!
# Proofs — JsonReading

Values of the data format that are written down are read back.

* `Json.reads_value`: a value is read back, whatever stands after it that is no part of a word.
* `Json.reads_entries`: the members of an object are read back in their order.
-/

namespace PacketLog.Json

open Text (Reader Rest Reads EndsRun endsRun_nil endsRun_cons)

/-! ### What is read -/

/-- What is read where the value has been written. -/
def toDatum : Json → Datum
  | .null       => .null
  | .flag b     => .flag b
  | .number n   => .integer n
  | .string cs  => .text (String.ofList cs)
  | .array js   => .array (js.map toDatum)
  | .object ms  => .table (ordered (ms.map fun m => (m.1, m.2.toDatum)))
decreasing_by
  · decreasing_tactic
  · next hm =>
      have hs := List.sizeOf_lt_of_mem hm
      cases m
      simp only [Prod.mk.sizeOf_spec, object.sizeOf_spec] at hs ⊢
      omega

/-- The value nests at most `room` deep and has no number beyond sixty-four bits. -/
inductive Readable : Nat → Json → Prop where
  | null {room : Nat} : Readable room .null
  | flag {room : Nat} (b : Bool) : Readable room (.flag b)
  | number {room n : Nat} (h : n < UInt64.size) : Readable room (.number n)
  | string {room : Nat} (cs : List Char) : Readable room (.string cs)
  | array {room : Nat} {js : List Json} (h : ∀ j ∈ js, Readable room j) :
      Readable (room + 1) (.array js)
  | object {room : Nat} {ms : List (String × Json)} (h : ∀ m ∈ ms, Readable room m.2) :
      Readable (room + 1) (.object ms)

/-! ### Numbers -/

theorem le_ofDigitChars (ds : List Char) (n : Nat) : n ≤ Nat.ofDigitChars 10 ds n := by
  induction ds generalizing n with
  | nil => exact Nat.le_refl n
  | cons d ds ih =>
      rw [Nat.ofDigitChars_cons]
      exact Nat.le_trans (by omega) (ih _)

/-- As long as the number fits, no digit is left over. -/
theorem gather_eq {ds : List Char} {n : Nat} (h : Nat.ofDigitChars 10 ds n < UInt64.size) :
    gather n ds = (Nat.ofDigitChars 10 ds n, 0) := by
  induction ds generalizing n with
  | nil => rfl
  | cons d ds ih =>
      rw [Nat.ofDigitChars_cons] at h ⊢
      have hm : 10 * n + (d.toNat - 48) < UInt64.size := Nat.lt_of_le_of_lt (le_ofDigitChars ds _) h
      rw [gather, if_pos hm]
      exact ih h

/-- Only zero begins with a zero. -/
theorem head?_toDigits {n : Nat} (h : 0 < n) : (Nat.toDigits 10 n).head? ≠ some '0' := by
  have digit : ∀ n < 10, 0 < n → [n.digitChar].head? ≠ some '0' := by decide
  -- the first digit is that of the number without its last digit
  induction n using Nat.strongRecOn with
  | ind n ih =>
      rw [Nat.toDigits_eq_if (by decide)]
      by_cases hn : n < 10
      · rw [if_pos hn]
        exact digit n hn h
      · rw [if_neg hn, List.head?_append]
        cases hd : Nat.toDigits 10 (n / 10) with
        | nil => exact absurd hd Nat.toDigits_ne_nil
        | cons c cs =>
            have hc := ih (n / 10) (by omega) (by omega)
            rwa [hd] at hc

theorem length_toDigits_of_head? {n : Nat} (h : (Nat.toDigits 10 n).head? = some '0') :
    (Nat.toDigits 10 n).length = 1 := by
  rcases Nat.eq_zero_or_pos n with rfl | hn
  · rfl
  · exact absurd h (head?_toDigits hn)

theorem parse?_digits {w : List Char} (hn : w ≠ []) (hd : ∀ c ∈ w, c.isDigit = true)
    (hz : w.head? = some '0' → w.length = 1) :
    Numeral.parse? w = some { negative := false, whole := w, part := [], power? := none } := by
  have ht : w.takeWhile Char.isDigit = w := by simpa using endsRun_nil.takeWhile hd
  have hr : w.dropWhile Char.isDigit = [] := by simpa using endsRun_nil.dropWhile hd
  have he : ¬(w.isEmpty || (w.head? = some '0' && 1 < w.length)) = true := by
    simp only [Bool.or_eq_true, List.isEmpty_iff, hn, Bool.and_eq_true, decide_eq_true_eq, false_or]
    rintro ⟨h, hl⟩
    have := hz h
    omega
  unfold Numeral.parse?
  cases w with
  | nil => exact absurd rfl hn
  | cons c w =>
      have hc : c ≠ '-' := by
        rintro rfl
        cases hd '-' List.mem_cons_self
      simp only [Option.bind_eq_bind]
      split
      · next h =>
          cases h
          exact absurd rfl hc
      · simp only [ht, hr]
        rw [if_neg he]
        rfl

theorem word?_toDigits {n : Nat} (h : n < UInt64.size) :
    word? (Nat.toDigits 10 n) = some (.integer n) := by
  have hd : ∀ c ∈ Nat.toDigits 10 n, c.isDigit = true := fun c hc =>
    Nat.isDigit_of_mem_toDigits (by decide) (by decide) hc
  have hp := parse?_digits Nat.toDigits_ne_nil hd length_toDigits_of_head?
  have hg : gather 0 (Nat.toDigits 10 n) = (n, 0) := by
    rw [gather_eq (by rwa [Nat.ofDigitChars_ten_toDigits]), Nat.ofDigitChars_ten_toDigits]
  have hw (w : List Char) (hw : ¬w.all Char.isDigit = true) : Nat.toDigits 10 n ≠ w := by
    rintro rfl
    exact hw (List.all_eq_true.2 hd)
  unfold word?
  -- digits are none of the three set words
  rw [if_neg (hw _ (by decide)), if_neg (hw _ (by decide)), if_neg (hw _ (by decide)), hp]
  simp only [Option.bind_some, Numeral.value?, hg]
  rfl

/-! ### Lists -/

theorem skipSpace_cons {c : Char} (h : isSpace c = false) (r : List Char) :
    skipSpace (c :: r) = c :: r := by
  unfold skipSpace
  rw [List.dropWhile_cons_of_neg (by simp [h])]

section Lists

variable {α β : Type} {close : Char} {item : Reader α} {cs rest : List Char} {a : α}

/-- Texts with a comma between each and the next. -/
def joined (f : β → List Char) : List β → List Char
  | []           => []
  | [b]          => f b
  | b :: b' :: bs => f b ++ ',' :: joined f (b' :: bs)

/-- The last item of a list stands before the sign that closes it. -/
theorem listed?_last {start : List Char} (hs : isSpace close = false) (hc : close ≠ ',')
    (h : Reads item cs a (close :: rest)) (done : List α) (inside : cs.length ≤ start.length) :
    ∃ shorter, listed? close item done cs inside = some ((a :: done).reverse, ⟨rest, shorter⟩) := by
  obtain ⟨shorter, h⟩ := h
  have hs : skipSpace (close :: rest) = close :: rest := skipSpace_cons hs rest
  refine ⟨Nat.lt_of_lt_of_le (Nat.lt_of_succ_lt shorter) inside, ?_⟩
  rw [listed?, h]
  simp only
  split
  · next he =>
      rw [hs] at he
      cases he
  · next he =>
      rw [hs] at he
      cases he
      rw [if_neg hc, if_pos rfl]

/-- Any other item stands before a comma. -/
theorem listed?_next {start : List Char} (h : Reads item cs a (',' :: rest)) (done : List α)
    (inside : cs.length ≤ start.length) : ∃ inside' : rest.length ≤ start.length,
      listed? close item done cs inside = listed? close item (a :: done) rest inside' := by
  obtain ⟨shorter, h⟩ := h
  have hs : skipSpace (',' :: rest) = ',' :: rest := skipSpace_cons rfl rest
  refine ⟨Nat.le_of_lt (Nat.lt_of_lt_of_le (Nat.lt_of_succ_lt shorter) inside), ?_⟩
  rw [listed?, h]
  simp only
  split
  · next he =>
      rw [hs] at he
      cases he
  · next he =>
      rw [hs] at he
      cases he
      rw [if_pos rfl]

variable {f : β → List Char} {g : β → α}

/-- Items that are each read are read up to the sign that closes the list. -/
theorem listed?_joined {start : List Char} {bs : List β} (hs : isSpace close = false)
    (hc : close ≠ ',') (hn : bs ≠ [])
    (reads : ∀ b ∈ bs, ∀ c r, c = ',' ∨ c = close → Reads item (f b ++ c :: r) (g b) (c :: r))
    (done : List α) (rest : List Char)
    (inside : (joined f bs ++ close :: rest).length ≤ start.length) :
    ∃ shorter, listed? close item done (joined f bs ++ close :: rest) inside =
      some (done.reverse ++ bs.map g, ⟨rest, shorter⟩) := by
  induction bs generalizing done with
  | nil => exact absurd rfl hn
  | cons b bs ih =>
      have hb := reads b List.mem_cons_self
      cases bs with
      | nil =>
          simp only [joined] at inside ⊢
          obtain ⟨shorter, h⟩ := listed?_last hs hc (hb close rest (.inr rfl)) done inside
          exact ⟨shorter, by simpa using h⟩
      | cons b' bs =>
          simp only [joined, List.append_assoc, List.cons_append] at inside ⊢
          obtain ⟨inside', h⟩ := listed?_next (hb ',' _ (.inl rfl)) done inside
          obtain ⟨shorter, ht⟩ := ih (by simp) (fun i hi => reads i (List.mem_cons_of_mem b hi))
            (g b :: done) inside'
          refine ⟨shorter, ?_⟩
          rw [h, ht]
          simp

/-- The list is not empty if something else than the closing sign comes first. -/
theorem list?_eq_listed? {c : Char} {r : List Char} (hcs : cs = c :: r) (hs : isSpace c = false)
    (hc : c ≠ close) : list? close item cs = listed? close item [] cs (Nat.le_refl _) := by
  subst hcs
  have hs : skipSpace (c :: r) = c :: r := skipSpace_cons hs r
  unfold list?
  split
  · next he =>
      rw [hs] at he
      cases he
  · next he =>
      rw [hs] at he
      cases he
      rw [if_neg hc]

/-- The closing sign alone is an empty list. -/
theorem reads_list_nil (hs : isSpace close = false) (rest : List Char) :
    Reads (list? close item) (close :: rest) [] rest := by
  have hs : skipSpace (close :: rest) = close :: rest := skipSpace_cons hs rest
  refine ⟨Nat.lt_succ_self _, ?_⟩
  unfold list?
  split
  · next he =>
      rw [hs] at he
      cases he
  · next he =>
      rw [hs] at he
      cases he
      rw [if_pos rfl]

/-- **Items that are each read are read as a list.** -/
theorem reads_list {bs : List β} (hs : isSpace close = false) (hc : close ≠ ',')
    (begins : ∀ b ∈ bs, ∃ c r, f b = c :: r ∧ isSpace c = false ∧ c ≠ close)
    (reads : ∀ b ∈ bs, ∀ c r, c = ',' ∨ c = close → Reads item (f b ++ c :: r) (g b) (c :: r))
    (rest : List Char) :
    Reads (list? close item) (joined f bs ++ close :: rest) (bs.map g) rest := by
  cases bs with
  | nil => exact reads_list_nil hs rest
  | cons b bs =>
      obtain ⟨c, r, hb, hspace, hclose⟩ := begins b List.mem_cons_self
      obtain ⟨s, hj⟩ : ∃ s, joined f (b :: bs) = c :: s := by
        cases bs with
        | nil => exact ⟨r, hb⟩
        | cons b' bs =>
            exact ⟨r ++ ',' :: joined f (b' :: bs), by rw [joined, hb, List.cons_append]⟩
      have hcs : joined f (b :: bs) ++ close :: rest = c :: (s ++ close :: rest) := by
        rw [hj, List.cons_append]
      obtain ⟨shorter, h⟩ := listed?_joined hs hc (by simp) reads [] rest (Nat.le_refl _)
      exact ⟨shorter, (list?_eq_listed? hcs hspace hclose).trans h⟩

end Lists

/-! ### Values -/

/-- What stands after a word cannot be taken for a part of it. -/
abbrev EndsWord : List Char → Prop := EndsRun isWordChar

section Values

variable {nested? : Option (Reader Datum)} {cs rest : List Char}

/-- What begins at once is read as after blanks. -/
theorem reads_spaced {α : Type} {item : Reader α} {a : α} (hs : skipSpace cs = cs)
    (h : Reads item cs a rest) : Reads (spaced item) cs a rest := by
  obtain ⟨shorter, h⟩ := h
  have key (ds : List Char) (hl : ds.length ≤ cs.length) (hd : ds = cs) :
      (item ds).map (fun p => (p.1, p.2.of hl)) = some (a, ⟨rest, shorter⟩) := by
    subst hd
    rw [h]
    rfl
  exact ⟨shorter, key _ _ hs⟩

theorem reads_word {w : List Char} {d : Datum} (hn : w ≠ []) (hw : ∀ c ∈ w, isWordChar c = true)
    (hd : word? w = some d) (hr : EndsWord rest) : Reads (front? nested?) (w ++ rest) d rest := by
  cases w with
  | nil => exact absurd rfl hn
  | cons c w =>
      have hc : isWordChar c = true := hw c List.mem_cons_self
      have hs : ∀ e ∈ w, isWordChar e = true := fun e he => hw e (List.mem_cons_of_mem c he)
      have hl : rest.length < (c :: w ++ rest).length := by
        simp only [List.length_append, List.length_cons]
        omega
      refine ⟨hl, ?_⟩
      simp only [List.cons_append]
      rw [front?]
      · simp only [if_pos hc, hr.takeWhile hs, hd, Option.map_some, Rest.dropWhile, hr.dropWhile hs]
      · rintro rfl
        cases hc
      · rintro rfl
        cases hc
      · rintro rfl
        cases hc

theorem reads_text {s : String} (h : Reads string? cs s rest) :
    Reads (front? nested?) ('"' :: cs) (.text s) rest := by
  obtain ⟨shorter, h⟩ := h
  exact ⟨Nat.lt_succ_of_lt shorter, by rw [front?, h]; rfl⟩

theorem reads_array {item : Reader Datum} {ds : List Datum}
    (h : Reads (elements? item) cs ds rest) :
    Reads (front? (some item)) ('[' :: cs) (.array ds) rest := by
  obtain ⟨shorter, h⟩ := h
  refine ⟨Nat.lt_succ_of_lt shorter, ?_⟩
  simp only [front?, Option.bind_eq_bind, Option.bind_some, h]
  rfl

theorem reads_object {item : Reader Datum} {ms : List (String × Datum)}
    (h : Reads (entries? item) cs ms rest) :
    Reads (front? (some item)) ('\x7b' :: cs) (.table (ordered ms)) rest := by
  obtain ⟨shorter, h⟩ := h
  refine ⟨Nat.lt_succ_of_lt shorter, ?_⟩
  simp only [front?, Option.bind_eq_bind, Option.bind_some, h]
  rfl

/-- A member is read with its name. -/
theorem reads_member {item : Reader Datum} {d : Datum} (k : String) (h : Reads item cs d rest) :
    Reads (member? item) (quote k.toList ++ ':' :: cs) (k, d) rest := by
  obtain ⟨hk, ht⟩ := reads_string k (':' :: cs)
  obtain ⟨shorter, h⟩ := h
  have hq : quote k.toList ++ ':' :: cs =
      '"' :: (k.toList.flatMap escapeChar ++ '"' :: ':' :: cs) := by
    simp [quote]
  have hs : skipSpace ('"' :: (k.toList.flatMap escapeChar ++ '"' :: ':' :: cs)) =
      '"' :: (k.toList.flatMap escapeChar ++ '"' :: ':' :: cs) := skipSpace_cons rfl _
  have hc : skipSpace (':' :: cs) = ':' :: cs := skipSpace_cons rfl cs
  rw [hq]
  refine ⟨Nat.lt_succ_of_lt (Nat.lt_trans (Nat.lt_succ_of_lt shorter) hk), ?_⟩
  unfold member?
  split
  · next he =>
      rw [hs] at he
      cases he
      simp only [Option.bind_eq_bind, ht, Option.bind_some]
      split
      · next he =>
          rw [hc] at he
          cases he
          rw [h]
          rfl
      · next hn => exact absurd hc (hn _)
  · next hn => exact absurd hs (hn _)

theorem exists_front (room : Nat) : ∃ nested?, value? room = spaced (front? nested?) := by
  cases room with
  | zero => exact ⟨none, rfl⟩
  | succ room => exact ⟨some (value? room), rfl⟩

theorem isWordChar_of_isDigit {c : Char} (h : c.isDigit = true) : isWordChar c = true := by
  simp [isWordChar, Char.isAlphanum, h]

theorem isSpace_of_isDigit {c : Char} (h : c.isDigit = true) : isSpace c = false := by
  unfold isSpace
  rw [Bool.eq_false_iff]
  intro hs
  simp only [Bool.or_eq_true, decide_eq_true_eq] at hs
  rcases hs with ((rfl | rfl) | rfl) | rfl
  all_goals cases h

/-- No value begins with a blank or with a sign that closes a list. -/
theorem exists_render (j : Json) : ∃ c r, j.render = c :: r ∧ isSpace c = false ∧ c ≠ ']' := by
  cases j with
  | null => exact ⟨_, _, rfl, rfl, by decide⟩
  | flag b =>
      cases b with
      | true => exact ⟨_, _, rfl, rfl, by decide⟩
      | false => exact ⟨_, _, rfl, rfl, by decide⟩
  | number n =>
      cases hd : Nat.toDigits 10 n with
      | nil => exact absurd hd Nat.toDigits_ne_nil
      | cons c r =>
          have hc : c.isDigit = true :=
            Nat.isDigit_of_mem_toDigits (by decide) (by decide) (hd ▸ List.mem_cons_self)
          refine ⟨c, r, by rw [render, hd], ?_, ?_⟩
          · exact isSpace_of_isDigit hc
          · rintro rfl
            cases hc
  | string cs => exact ⟨_, _, rfl, rfl, by decide⟩
  | array js => exact ⟨_, _, rfl, rfl, by decide⟩
  | object ms => exact ⟨_, _, rfl, rfl, by decide⟩

theorem renderItems_eq (js : List Json) : renderItems js = joined render js := by
  induction js with
  | nil => rfl
  | cons j js ih =>
      cases js with
      | nil => rfl
      | cons k js => rw [renderItems, ih, joined]

/-- A member as it is written. -/
def renderMember (m : String × Json) : List Char := quote m.1.toList ++ ':' :: m.2.render

theorem renderMembers_eq (ms : List (String × Json)) :
    renderMembers ms = joined renderMember ms := by
  induction ms with
  | nil => rfl
  | cons m ms ih =>
      cases ms with
      | nil => rfl
      | cons m' ms => rw [renderMembers, ih, joined]; simp [renderMember]

/-- The members of an object are read in their order if their values are read. -/
theorem reads_entries {item : Reader Datum} {ms : List (String × Json)}
    (reads : ∀ m ∈ ms, ∀ r, EndsWord r → Reads item (m.2.render ++ r) m.2.toDatum r)
    (rest : List Char) : Reads (entries? item) (renderMembers ms ++ '\x7d' :: rest)
      (ms.map fun m => (m.1, m.2.toDatum)) rest := by
  rw [renderMembers_eq]
  refine reads_list rfl (by decide) (fun m _ => ⟨_, _, rfl, rfl, by decide⟩) ?_ rest
  intro m hm c r hc
  have hr : EndsWord (c :: r) := by
    rcases hc with rfl | rfl
    · exact endsRun_cons rfl
    · exact endsRun_cons rfl
  have h := reads_member m.1 (reads m hm (c :: r) hr)
  have ht : renderMember m ++ c :: r = quote m.1.toList ++ ':' :: (m.2.render ++ c :: r) := by
    simp [renderMember]
  rw [← ht] at h
  exact h

/-- The items of an array are read if their values are read. -/
theorem reads_elements {item : Reader Datum} {js : List Json}
    (reads : ∀ j ∈ js, ∀ r, EndsWord r → Reads item (j.render ++ r) j.toDatum r)
    (rest : List Char) :
    Reads (elements? item) (renderItems js ++ ']' :: rest) (js.map toDatum) rest := by
  rw [renderItems_eq]
  refine reads_list rfl (by decide) (fun j _ => exists_render j) ?_ rest
  intro j hj c r hc
  refine reads j hj (c :: r) ?_
  rcases hc with rfl | rfl
  · exact endsRun_cons rfl
  · exact endsRun_cons rfl

theorem skipSpace_render (j : Json) (rest : List Char) :
    skipSpace (j.render ++ rest) = j.render ++ rest := by
  obtain ⟨c, r, hc, h, -⟩ := exists_render j
  rw [hc]
  exact skipSpace_cons h _

/-- What is read at the front of a value is the value. -/
theorem reads_value_of_front {room : Nat} {j : Json} {d : Datum}
    (h : ∀ nested?, Reads (front? nested?) (j.render ++ rest) d rest) :
    Reads (value? room) (j.render ++ rest) d rest := by
  obtain ⟨nested?, hv⟩ := exists_front room
  rw [hv]
  exact reads_spaced (skipSpace_render j rest) (h nested?)

/-- **A value that has been written is read back**, whatever stands after it that is no part of a
word. -/
theorem reads_value {room : Nat} {j : Json} (hj : Readable room j) (hr : EndsWord rest) :
    Reads (value? room) (j.render ++ rest) j.toDatum rest := by
  induction hj generalizing rest with
  | null =>
      rw [toDatum]
      exact reads_value_of_front fun _ => reads_word (by decide) (List.all_eq_true.1 rfl) rfl hr
  | flag b =>
      rw [toDatum]
      refine reads_value_of_front fun _ => ?_
      cases b with
      | true =>
          exact reads_word (w := ['t', 'r', 'u', 'e']) (by decide)
            (List.all_eq_true.1 rfl) rfl hr
      | false =>
          exact reads_word (w := ['f', 'a', 'l', 's', 'e']) (by decide)
            (List.all_eq_true.1 rfl) rfl hr
  | @number _ n h =>
      have hd : ∀ c ∈ Nat.toDigits 10 n, isWordChar c = true := fun c hc =>
        isWordChar_of_isDigit (Nat.isDigit_of_mem_toDigits (by decide) (by decide) hc)
      rw [toDatum]
      exact reads_value_of_front fun _ =>
        reads_word Nat.toDigits_ne_nil hd (word?_toDigits h) hr
  | string cs =>
      rw [toDatum]
      refine reads_value_of_front fun _ => ?_
      have h := reads_string (String.ofList cs) rest
      rw [String.toList_ofList] at h
      have ht : (Json.string cs).render ++ rest =
          '"' :: (cs.flatMap escapeChar ++ '"' :: rest) := by
        simp [render, quote]
      rw [ht]
      exact reads_text h
  | @array _ js h ih =>
      rw [toDatum]
      refine reads_spaced (skipSpace_render _ rest) ?_
      have he := reads_elements (fun j hj r hr => ih j hj hr) rest
      have ht : (Json.array js).render ++ rest = '[' :: (renderItems js ++ ']' :: rest) := by
        simp [render]
      rw [ht]
      exact reads_array he
  | @object _ ms h ih =>
      rw [toDatum]
      refine reads_spaced (skipSpace_render _ rest) ?_
      have he := reads_entries (fun m hm r hr => ih m hm hr) rest
      have ht : (Json.object ms).render ++ rest =
          '\x7b' :: (renderMembers ms ++ '\x7d' :: rest) := by
        simp [render]
      rw [ht]
      exact reads_object he

end Values

/-! ### Texts -/

/-- The members of the object that makes up a text, in the order of the text. -/
def membersOf? (text : String) : Option (List (String × Datum)) :=
  match text.toList with
  | '\x7b' :: r =>
    match entries? (value? (nestingLimit - 1)) r with
    | some (ms, ⟨[], _⟩) => some ms
    | _                  => none
  | _ => none

theorem membersOf?_eq_some {text : String} {r : List Char} {ms : List (String × Datum)}
    (ht : text.toList = '\x7b' :: r) (h : Reads (entries? (value? (nestingLimit - 1))) r ms []) :
    membersOf? text = some ms := by
  obtain ⟨shorter, h⟩ := h
  unfold membersOf?
  rw [ht]
  simp only [h]

/-- **A text that is an object stands for a table of its members**, which are in order there. -/
theorem read?_of_membersOf? {text : String} {ms : List (String × Datum)}
    (h : membersOf? text = some ms) : read? text = some (.table (ordered ms)) := by
  unfold membersOf? at h
  split at h
  · next r ht =>
      split at h
      · next shorter he =>
          obtain rfl := Option.some.inj h
          have hs : skipSpace ('\x7b' :: r) = '\x7b' :: r := skipSpace_cons rfl r
          have hv : Reads (value? nestingLimit) text.toList (.table (ordered _)) [] :=
            ht ▸ reads_spaced hs (reads_object ⟨shorter, he⟩)
          obtain ⟨shorter, hv⟩ := hv
          unfold read?
          rw [hv]
          rfl
      · cases h
  · cases h

/-- **The members of an object that has been written are read back in their order.** -/
theorem membersOf?_render {ms : List (String × Json)}
    (h : ∀ m ∈ ms, Readable (nestingLimit - 1) m.2) :
    membersOf? (String.ofList (Json.object ms).render) =
      some (ms.map fun m => (m.1, m.2.toDatum)) := by
  have ht : (String.ofList (Json.object ms).render).toList =
      '\x7b' :: (renderMembers ms ++ ['\x7d']) := by
    simp [render]
  exact membersOf?_eq_some ht (reads_entries (fun m hm r hr => reads_value (h m hm) hr) [])

end PacketLog.Json
