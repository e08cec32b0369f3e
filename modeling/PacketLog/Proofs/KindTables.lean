import PacketLog.Config.Layer

/-!
# Proofs — KindTables

Tables of toggles, in which names ascend.

* `KindTable.lookup_insertAll`: a table that is entered over another decides what stands under the
  names it has.
* `KindTable.Ascending.ext`: a table is known by what stands under each name.
-/

namespace PacketLog.Config

namespace KindTable

/-- The names ascend, so that none stands twice. -/
def Ascending (t : KindTable) : Prop := t.Pairwise fun a b => a.1 < b.1

theorem eq_or_lt_of_not_lt {a b : String} (h : ¬a < b) : a = b ∨ b < a := by
  by_cases hb : b < a
  · exact .inr hb
  · exact .inl (String.le_antisymm (String.not_lt.1 hb) (String.not_lt.1 h))

theorem lookup_cons_self {n : String} {v : KindToggle} {t : KindTable} :
    List.lookup n ((n, v) :: t) = some v := by
  rw [List.lookup_cons_self]

theorem lookup_cons_ne {n m : String} {v : KindToggle} {t : KindTable} (h : n ≠ m) :
    List.lookup n ((m, v) :: t) = t.lookup n := by
  rw [List.lookup_cons, beq_false_of_ne h]

/-- What stands under a name after another toggle has been entered. -/
theorem lookup_insert (name : String) (v : KindToggle) (t : KindTable) (n : String) :
    (t.insert name v).lookup n = if n = name then some v else t.lookup n := by
  induction t with
  | nil =>
      by_cases h : n = name
      · rw [if_pos h, h]
        exact lookup_cons_self
      · rw [if_neg h]
        exact lookup_cons_ne h
  | cons e t ih =>
      obtain ⟨m, w⟩ := e
      unfold insert
      split
      · by_cases h : n = name
        · rw [if_pos h, h]
          exact lookup_cons_self
        · rw [if_neg h]
          exact lookup_cons_ne h
      split
      · next _ hm =>
          by_cases h : n = name
          · rw [if_pos h, h]
            exact lookup_cons_self
          · rw [if_neg h, lookup_cons_ne h, lookup_cons_ne (hm ▸ h)]
      · next _ hm =>
          by_cases h : n = m
          · rw [if_neg (fun hn => hm (hn.symm.trans h)), h, lookup_cons_self, lookup_cons_self]
          · rw [lookup_cons_ne h, ih, lookup_cons_ne h]

theorem mem_insert {name : String} {v : KindToggle} {t : KindTable} {e : String × KindToggle}
    (h : e ∈ t.insert name v) : e = (name, v) ∨ e ∈ t := by
  induction t with
  | nil => exact .inl (List.mem_singleton.1 h)
  | cons d t ih =>
      unfold insert at h
      split at h
      · exact List.mem_cons.1 h
      split at h
      · exact (List.mem_cons.1 h).imp_right (List.mem_cons_of_mem d)
      · rcases List.mem_cons.1 h with rfl | h
        · exact .inr List.mem_cons_self
        · exact (ih h).imp_right (List.mem_cons_of_mem d)

/-- A toggle is entered in its place. -/
theorem Ascending.insert {t : KindTable} (ht : t.Ascending) (name : String) (v : KindToggle) :
    (t.insert name v).Ascending := by
  induction t with
  | nil => exact List.pairwise_singleton _ _
  | cons d t ih =>
      obtain ⟨hd, ht⟩ := List.pairwise_cons.1 ht
      unfold KindTable.insert
      split
      · next h =>
          refine List.pairwise_cons.2 ⟨?_, List.pairwise_cons.2 ⟨hd, ht⟩⟩
          intro e he
          rcases List.mem_cons.1 he with rfl | he
          · exact h
          · exact String.lt_trans h (hd e he)
      split
      · next _ h =>
          obtain rfl : name = _ := h
          exact List.pairwise_cons.2 ⟨hd, ht⟩
      · next h hn =>
          refine List.pairwise_cons.2 ⟨?_, ih ht⟩
          intro e he
          rcases mem_insert he with rfl | he
          · exact (eq_or_lt_of_not_lt h).resolve_left hn
          · exact hd e he

theorem Ascending.insertAll {lower : KindTable} (h : lower.Ascending) (upper : KindTable) :
    (lower.insertAll upper).Ascending := by
  unfold KindTable.insertAll
  induction upper generalizing lower with
  | nil => exact h
  | cons e upper ih => exact ih (h.insert e.1 e.2)

/-- A list of entries makes a table. -/
theorem ascending_ofList (es : List (String × KindToggle)) : (ofList es).Ascending :=
  Ascending.insertAll .nil es

/-- No name before the first stands in a table. -/
theorem lookup_eq_none {t : KindTable} {n : String} (h : ∀ e ∈ t, n < e.1) : t.lookup n = none := by
  induction t with
  | nil => rfl
  | cons d t ih =>
      have hd : n ≠ d.1 := by
        intro hn
        exact String.lt_irrefl n (hn ▸ h d List.mem_cons_self)
      rw [lookup_cons_ne hd]
      exact ih fun e he => h e (List.mem_cons_of_mem d he)

/-- What stands under a name when a whole table has been entered over another. -/
theorem lookup_insertAll (lower : KindTable) {upper : KindTable} (h : upper.Ascending)
    (n : String) : (lower.insertAll upper).lookup n = (upper.lookup n).or (lower.lookup n) := by
  unfold insertAll
  induction upper generalizing lower with
  | nil => rfl
  | cons e upper ih =>
      obtain ⟨m, v⟩ := e
      obtain ⟨hm, hu⟩ := List.pairwise_cons.1 h
      rw [List.foldl_cons, ih _ hu, lookup_insert]
      by_cases hn : n = m
      · subst hn
        rw [if_pos rfl, lookup_eq_none hm, lookup_cons_self]
        rfl
      · rw [if_neg hn, lookup_cons_ne hn]

/-- The first name of a table, with what stands under it, stands first in every table in which the
same stands. -/
theorem head_eq {d e : String × KindToggle} {s t : KindTable} (hs : Ascending (d :: s))
    (ht : Ascending (e :: t)) (h : ∀ n, List.lookup n (d :: s) = List.lookup n (e :: t)) :
    d = e := by
  obtain ⟨n, v⟩ := d
  obtain ⟨m, w⟩ := e
  obtain ⟨hs, -⟩ := List.pairwise_cons.1 hs
  obtain ⟨ht, -⟩ := List.pairwise_cons.1 ht
  -- a name before the first does not stand in the table
  have first {a b : String} {x y : KindToggle} {l : KindTable} (hl : ∀ e ∈ l, b < e.1)
      (hx : List.lookup a ((b, y) :: l) = some x) : ¬a < b := by
    intro hab
    have hne : a ≠ b := by
      rintro rfl
      exact String.lt_irrefl a hab
    rw [lookup_cons_ne hne, lookup_eq_none fun e he => String.lt_trans hab (hl e he)] at hx
    cases hx
  have hn : List.lookup n ((m, w) :: t) = some v := (h n).symm.trans lookup_cons_self
  have hm : List.lookup m ((n, v) :: s) = some w := (h m).trans lookup_cons_self
  obtain rfl : n = m := (eq_or_lt_of_not_lt (first ht hn)).resolve_right (first hs hm)
  rw [lookup_cons_self] at hn
  rw [Option.some.inj hn]

/-- Tables in which the same stands under every name are the same. -/
theorem Ascending.ext {s t : KindTable} (hs : s.Ascending) (ht : t.Ascending)
    (h : ∀ n, s.lookup n = t.lookup n) : s = t := by
  -- both have the same first entry, and without it the same stands under each name
  induction s generalizing t with
  | nil =>
      cases t with
      | nil => rfl
      | cons e t => cases (h e.1).trans lookup_cons_self
  | cons d s ih =>
      cases t with
      | nil => cases (h d.1).symm.trans lookup_cons_self
      | cons e t =>
          obtain rfl := head_eq hs ht h
          obtain ⟨hds, hs⟩ := List.pairwise_cons.1 hs
          obtain ⟨hdt, ht⟩ := List.pairwise_cons.1 ht
          rw [ih hs ht]
          intro n
          by_cases hn : n = d.1
          · rw [hn, lookup_eq_none hds, lookup_eq_none hdt]
          · have hl := h n
            rwa [lookup_cons_ne hn, lookup_cons_ne hn] at hl

end KindTable

end PacketLog.Config
