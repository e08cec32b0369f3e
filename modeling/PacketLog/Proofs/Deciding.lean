import Mathlib.Data.List.Basic
import PacketLog.Proofs.Leaves

/-!
# Proofs — Deciding

Which source decides a setting.

* `Source.sorted_eq`: sources are read rank by rank, and within a rank in the order given.
* `Source.decides_iff`: the source that decides a setting is the last to mention it.
* `Source.decides_replaced`: what a source says where another overrides it decides nothing.
-/

namespace PacketLog.Config.Source

/-! ### The order in which sources are read -/

section Sorted

/-- The sources of one rank, in the order given. -/
def ofRank (rank : Rank) (sources : List Source) : List Source :=
  sources.filter fun s => s.rank = rank

/-- The ranks, in ascending order. -/
def ranks : List Rank := [.defaults, .file, .environment]

/-- The sources rank by rank. -/
def byRank (sources : List Source) : List Source := ranks.flatMap (ofRank · sources)

/-- The ranks ascend. -/
def Ranked (sources : List Source) : Prop :=
  sources.Pairwise fun s t => s.rank.weight ≤ t.rank.weight

/-- The ranks below one stand before it and those above it after it. -/
theorem ranks_eq (r : Rank) : ∃ lower upper : List Rank, ranks = lower ++ r :: upper ∧
    (∀ q ∈ lower, q.weight < r.weight) ∧ ∀ q, q ∈ upper ↔ r.weight < q.weight := by
  cases r with
  | defaults =>
      refine ⟨[], [.file, .environment], rfl, by decide, fun q => ?_⟩
      cases q <;> decide
  | file =>
      refine ⟨[.defaults], [.environment], rfl, by decide, fun q => ?_⟩
      cases q <;> decide
  | environment =>
      refine ⟨[.defaults, .file], [], rfl, by decide, fun q => ?_⟩
      cases q <;> decide

theorem mem_ofRank {s : Source} {rank : Rank} {sources : List Source} :
    s ∈ ofRank rank sources ↔ s ∈ sources ∧ s.rank = rank := by
  unfold ofRank
  rw [List.mem_filter, decide_eq_true_iff]

theorem ofRank_append (rank : Rank) (ss ts : List Source) :
    ofRank rank (ss ++ ts) = ofRank rank ss ++ ofRank rank ts :=
  List.filter_append ..

theorem ofRank_cons_self {s : Source} {rank : Rank} (h : s.rank = rank) (ss : List Source) :
    ofRank rank (s :: ss) = s :: ofRank rank ss :=
  List.filter_cons_of_pos (decide_eq_true h)

theorem ofRank_cons_ne {s : Source} {rank : Rank} (h : s.rank ≠ rank) (ss : List Source) :
    ofRank rank (s :: ss) = ofRank rank ss :=
  List.filter_cons_of_neg fun hs => h (of_decide_eq_true hs)

theorem ne_of_weight_lt {r q : Rank} (h : r.weight < q.weight) : r ≠ q := by
  rintro rfl
  exact Nat.lt_irrefl _ h

/-- A source does not stand among those of other ranks. -/
theorem flatMap_ofRank {s : Source} {qs : List Rank} (h : ∀ q ∈ qs, s.rank ≠ q)
    (before after : List Source) : qs.flatMap (ofRank · (before ++ s :: after)) =
      qs.flatMap (ofRank · (before ++ after)) := by
  refine List.flatMap_congr fun q hq => ?_
  rw [ofRank_append, ofRank_cons_ne (h q hq), ← ofRank_append]

/-- Sources whose ranks ascend stand rank by rank. -/
theorem Ranked.eq_byRank {ss : List Source} (h : Ranked ss) : ss = byRank ss := by
  -- the first source is the first of its rank, and none of the rest has a lower one
  induction ss with
  | nil => rfl
  | cons s ss ih =>
      obtain ⟨hs, h⟩ := List.pairwise_cons.1 h
      obtain ⟨lower, upper, hranks, hlower, hupper⟩ := ranks_eq s.rank
      have none_lower : lower.flatMap (ofRank · ss) = [] := by
        refine List.flatMap_eq_nil_iff.2 fun q hq => List.eq_nil_iff_forall_not_mem.2 fun t ht => ?_
        obtain ⟨hmem, rfl⟩ := mem_ofRank.1 ht
        exact Nat.not_le_of_lt (hlower t.rank hq) (hs t hmem)
      have hss : ss = ofRank s.rank ss ++ upper.flatMap (ofRank · ss) := by
        have ih := ih h
        unfold byRank at ih
        rwa [hranks, List.flatMap_append, none_lower, List.nil_append, List.flatMap_cons] at ih
      have same_lower : lower.flatMap (ofRank · (s :: ss)) = lower.flatMap (ofRank · ss) :=
        flatMap_ofRank (fun q hq => (ne_of_weight_lt (hlower q hq)).symm) [] ss
      have same_upper : upper.flatMap (ofRank · (s :: ss)) = upper.flatMap (ofRank · ss) :=
        flatMap_ofRank (fun q hq => ne_of_weight_lt ((hupper q).1 hq)) [] ss
      unfold byRank
      rw [hranks, List.flatMap_append, same_lower, none_lower, List.nil_append, List.flatMap_cons,
        ofRank_cons_self rfl, same_upper, List.cons_append, ← hss]

/-- The order of the ranks. -/
def rankLe (a b : Source) : Bool := a.rank.weight ≤ b.rank.weight

theorem rankLe_iff {a b : Source} : rankLe a b = true ↔ a.rank.weight ≤ b.rank.weight :=
  decide_eq_true_iff

theorem rankLe_trans (a b c : Source) (hab : rankLe a b = true) (hbc : rankLe b c = true) :
    rankLe a c = true :=
  rankLe_iff.2 (Nat.le_trans (rankLe_iff.1 hab) (rankLe_iff.1 hbc))

theorem rankLe_total (a b : Source) : (rankLe a b || rankLe b a) = true := by
  rw [Bool.or_eq_true, rankLe_iff, rankLe_iff]
  exact Nat.le_total _ _

theorem ranked_sorted (sources : List Source) : Ranked (sorted sources) :=
  (List.pairwise_mergeSort rankLe_trans rankLe_total sources).imp rankLe_iff.1

theorem perm_sorted (sources : List Source) : (sorted sources).Perm sources :=
  List.mergeSort_perm sources rankLe

/-- Sources of one rank are not moved past each other. -/
theorem ofRank_sorted (rank : Rank) (sources : List Source) :
    ofRank rank (sorted sources) = ofRank rank sources := by
  have hp : (ofRank rank sources).Pairwise fun a b => rankLe a b = true := by
    refine List.pairwise_of_forall_mem_list fun a ha b hb => ?_
    exact rankLe_iff.2 (Nat.le_of_eq (by rw [(mem_ofRank.1 ha).2, (mem_ofRank.1 hb).2]))
  have hs : (ofRank rank sources).Sublist (sorted sources) :=
    List.sublist_mergeSort rankLe_trans rankLe_total hp List.filter_sublist
  have hf : (ofRank rank sources).Sublist (ofRank rank (sorted sources)) := by
    have h := hs.filter fun s => decide (s.rank = rank)
    simpa [ofRank, List.filter_filter] using h
  exact (hf.eq_of_length ((perm_sorted sources).filter _).length_eq.symm).symm

/-- **Sources are read rank by rank**, and within a rank in the order given. -/
theorem sorted_eq (sources : List Source) : sorted sources = byRank sources := by
  rw [(ranked_sorted sources).eq_byRank]
  exact List.flatMap_congr fun rank _ => ofRank_sorted rank sources

theorem weight_inj {r q : Rank} (h : r.weight = q.weight) : r = q := by
  cases r <;> cases q <;> first | rfl | cases h

/-- The source `t` overrides a source of this rank that stands between `before` and `after`: it has
a higher rank, or the same and stands after it. -/
def Overrides (t : Source) (rank : Rank) (before after : List Source) : Prop :=
  (t ∈ before ∧ rank.weight < t.rank.weight) ∨ (t ∈ after ∧ rank.weight ≤ t.rank.weight)

/-- A source keeps its place among others if another of its rank is put there, and those that
override it are read after it. -/
theorem sorted_replace (rank : Rank) (before after : List Source) :
    ∃ lower upper : List Source,
      (∀ s : Source, s.rank = rank → sorted (before ++ s :: after) = lower ++ s :: upper) ∧
      ∀ t : Source, t ∈ upper ↔ t.Overrides rank before after := by
  obtain ⟨lower, upper, hranks, hlower, hupper⟩ := ranks_eq rank
  refine ⟨lower.flatMap (ofRank · (before ++ after)) ++ ofRank rank before,
    ofRank rank after ++ upper.flatMap (ofRank · (before ++ after)), ?_, fun t => ?_⟩
  · rintro s rfl
    rw [sorted_eq, byRank, hranks, List.flatMap_append, List.flatMap_cons,
      flatMap_ofRank fun q hq => (ne_of_weight_lt (hlower q hq)).symm,
      flatMap_ofRank fun q hq => ne_of_weight_lt ((hupper q).1 hq), ofRank_append,
      ofRank_cons_self rfl]
    simp only [List.append_assoc, List.cons_append]
  · have above : t ∈ upper.flatMap (ofRank · (before ++ after)) ↔
        t ∈ before ++ after ∧ rank.weight < t.rank.weight := by
      rw [List.mem_flatMap]
      constructor
      · rintro ⟨q, hq, ht⟩
        obtain ⟨hmem, rfl⟩ := mem_ofRank.1 ht
        exact ⟨hmem, (hupper t.rank).1 hq⟩
      · rintro ⟨hmem, hlt⟩
        exact ⟨t.rank, (hupper t.rank).2 hlt, mem_ofRank.2 ⟨hmem, rfl⟩⟩
    rw [List.mem_append, above, mem_ofRank, List.mem_append]
    constructor
    · rintro (⟨ht, hr⟩ | ⟨ht | ht, hlt⟩)
      · exact .inr ⟨ht, Nat.le_of_eq (by rw [hr])⟩
      · exact .inl ⟨ht, hlt⟩
      · exact .inr ⟨ht, Nat.le_of_lt hlt⟩
    · rintro (⟨ht, hlt⟩ | ⟨ht, hle⟩)
      · exact .inr ⟨.inl ht, hlt⟩
      · rcases Nat.lt_or_eq_of_le hle with hlt | he
        · exact .inr ⟨.inr ht, hlt⟩
        · exact .inl ⟨ht, (weight_inj he).symm⟩

end Sorted

/-! ### The last source that mentions a setting -/

section Said

variable {α : Type} {leaf : Leaf α}

/-- What a source says on a setting. -/
def get? (s : Source) (leaf : Leaf α) : Option α :=
  match s.loaded with
  | .ok l    => l.get leaf
  | .error _ => none

/-- What the last source says that mentions a setting. -/
def said (leaf : Leaf α) : List Source → Option α
  | []      => none
  | s :: ss => (said leaf ss).or (s.get? leaf)

theorem said_append (ss ts : List Source) :
    said leaf (ss ++ ts) = (said leaf ts).or (said leaf ss) := by
  induction ss with
  | nil => rw [List.nil_append, said, Option.or_none]
  | cons s ss ih => rw [List.cons_append, said, ih, said, Option.or_assoc]

theorem said_eq_none_iff {ss : List Source} :
    said leaf ss = none ↔ ∀ s ∈ ss, s.get? leaf = none := by
  induction ss with
  | nil => simp [said]
  | cons s ss ih => rw [said, Option.or_eq_none_iff, ih, List.forall_mem_cons, and_comm]

theorem said_eq_some_iff {ss : List Source} {a : α} :
    said leaf ss = some a ↔ ∃ before s after, ss = before ++ s :: after ∧ s.get? leaf = some a ∧
      ∀ t ∈ after, t.get? leaf = none := by
  constructor
  · intro h
    induction ss with
    | nil => cases h
    | cons s ss ih =>
        rw [said, Option.or_eq_some_iff] at h
        rcases h with h | ⟨hn, h⟩
        · obtain ⟨before, t, after, rfl, ht, ha⟩ := ih h
          exact ⟨s :: before, t, after, rfl, ht, ha⟩
        · exact ⟨[], s, ss, rfl, h, said_eq_none_iff.1 hn⟩
  · rintro ⟨before, s, after, rfl, hs, ha⟩
    rw [said_append, said, said_eq_none_iff.2 ha, hs]
    rfl

end Said

/-! ### The source that decides a setting -/

section Decides

variable {α : Type} {leaf : Leaf α} {a : α}

/-- One of the sources says it, and none that overrides it mentions the setting. -/
def Decides (sources : List Source) (leaf : Leaf α) (a : α) : Prop :=
  ∃ before s after, sources = before ++ s :: after ∧ s.get? leaf = some a ∧
    ∀ t : Source, t.Overrides s.rank before after → t.get? leaf = none

/-- What the last source of a rank says counts if no source of a higher rank mentions the
setting. -/
theorem decides_of_said {sources : List Source} {rank : Rank}
    (h : said leaf (ofRank rank sources) = some a)
    (higher : ∀ t ∈ sources, rank.weight < t.rank.weight → t.get? leaf = none) :
    Decides sources leaf a := by
  obtain ⟨before, s, after, hs, hsays, hafter⟩ := said_eq_some_iff.1 h
  obtain ⟨first, rest, rfl, -, hrest⟩ := List.filter_eq_append_iff.1 hs
  obtain ⟨between, last, rfl, -, hrank, rfl⟩ := List.filter_eq_cons_iff.1 hrest
  obtain rfl : s.rank = rank := of_decide_eq_true hrank
  rw [← List.append_assoc] at higher ⊢
  refine ⟨first ++ between, s, last, rfl, hsays, ?_⟩
  rintro t (⟨ht, hlt⟩ | ⟨ht, hle⟩)
  · exact higher t (List.mem_append_left _ ht) hlt
  · rcases Nat.lt_or_eq_of_le hle with hlt | he
    · exact higher t (List.mem_append_right _ (List.mem_cons_of_mem s ht)) hlt
    · exact hafter t (mem_ofRank.2 ⟨ht, (weight_inj he).symm⟩)

/-- What the last source says that mentions a setting, rank by rank from the highest. -/
theorem said_sorted (leaf : Leaf α) (sources : List Source) : said leaf (sorted sources) =
    (said leaf (ofRank .environment sources)).or
      ((said leaf (ofRank .file sources)).or (said leaf (ofRank .defaults sources))) := by
  rw [sorted_eq, byRank]
  simp only [ranks, List.flatMap_cons, List.flatMap_nil, List.append_nil, said_append,
    Option.or_assoc]

theorem get?_eq_none {sources : List Source} {rank : Rank}
    (h : said leaf (ofRank rank sources) = none) {t : Source} (ht : t ∈ sources)
    (hr : t.rank = rank) : t.get? leaf = none :=
  said_eq_none_iff.1 h t (mem_ofRank.2 ⟨ht, hr⟩)

/-- **The source that decides a setting is the last to mention it** when the sources are read. -/
theorem decides_iff {sources : List Source} :
    Decides sources leaf a ↔ said leaf (sorted sources) = some a := by
  constructor
  · rintro ⟨before, s, after, rfl, hs, ho⟩
    obtain ⟨lower, upper, hsorted, hupper⟩ := sorted_replace s.rank before after
    rw [hsorted s rfl]
    exact said_eq_some_iff.2 ⟨lower, s, upper, rfl, hs, fun t ht => ho t ((hupper t).1 ht)⟩
  · intro h
    -- the highest rank with a source that mentions the setting has the one that decides it
    rw [said_sorted] at h
    simp only [Option.or_eq_some_iff] at h
    rcases h with h | ⟨he, h | ⟨hf, h⟩⟩
    · refine decides_of_said h fun t ht hw => ?_
      cases hr : t.rank <;> simp [hr, Rank.weight] at hw
    · refine decides_of_said h fun t ht hw => ?_
      cases hr : t.rank with
      | environment => exact get?_eq_none he ht hr
      | _ => simp [hr, Rank.weight] at hw
    · refine decides_of_said h fun t ht hw => ?_
      cases hr : t.rank with
      | environment => exact get?_eq_none he ht hr
      | file => exact get?_eq_none hf ht hr
      | defaults => simp [hr, Rank.weight] at hw

/-- A setting that a source mentions is decided. -/
theorem exists_decides {sources : List Source} {s : Source} (hs : s ∈ sources)
    (h : s.get? leaf ≠ none) : ∃ a, Decides sources leaf a := by
  cases hd : said leaf (sorted sources) with
  | none =>
      have hm : s ∈ sorted sources := (perm_sorted sources).mem_iff.2 hs
      exact absurd (said_eq_none_iff.1 hd s hm) h
  | some a => exact ⟨a, decides_iff.2 hd⟩

end Decides

/-! ### One source in the place of another -/

section Replaced

/-- Two sources of one rank decide the same in the same place if they say the same on the settings
on which no source overrides them. -/
theorem decides_replaced {before after : List Source} {s s' : Source} (hr : s'.rank = s.rank)
    {α : Type} {leaf : Leaf α}
    (h : s'.get? leaf = s.get? leaf ∨
      ∃ t : Source, t.Overrides s.rank before after ∧ t.get? leaf ≠ none) (a : α) :
    Decides (before ++ s' :: after) leaf a ↔ Decides (before ++ s :: after) leaf a := by
  obtain ⟨lower, upper, hsorted, hupper⟩ := sorted_replace s.rank before after
  rw [decides_iff, decides_iff, hsorted s rfl, hsorted s' hr, said_append, said_append, said, said]
  rcases h with h | ⟨t, ht, hsays⟩
  · rw [h]
  · cases hu : said leaf upper with
    | none => exact absurd (said_eq_none_iff.1 hu t ((hupper t).2 ht)) hsays
    | some b => rfl

end Replaced

end PacketLog.Config.Source
