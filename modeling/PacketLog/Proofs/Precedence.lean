import PacketLog.Proofs.Deciding

/-!
# Proofs — Precedence

How sources of configuration combine.

* `Source.stack_ok`, `Source.stack_fails`: what reading them one after the other gives.
* `Source.precedence`: they combine to what the deciding source says on each setting.
* `Source.inOrder_file`, `Source.inOrder_environment`: the tables of the sources there are are in
  order.
-/

namespace PacketLog.Config.Source

/-! ### Reading the sources -/

section Stack

/-- The source can be read. -/
def Loads (s : Source) : Prop := ∃ l, s.loaded = .ok l

/-- The tables of the source are in order, as those of a document are. -/
def InOrder (s : Source) : Prop := ∀ l, s.loaded = .ok l → l.InOrder

/-- What is read says on each setting what the last source says that mentions it. -/
theorem stack_ok {below : Layer} {ss : List Source} (hb : below.InOrder)
    (loads : ∀ s ∈ ss, s.Loads) (ordered : ∀ s ∈ ss, s.InOrder) :
    ∃ l, stack below ss = .ok l ∧ l.InOrder ∧
      ∀ {α : Type} (leaf : Leaf α), l.get leaf = (said leaf ss).or (below.get leaf) := by
  -- each source is put on top of the layer below and makes the one below the rest
  induction ss generalizing below with
  | nil => exact ⟨below, rfl, hb, fun leaf => (Option.none_or).symm⟩
  | cons s ss ih =>
      obtain ⟨k, hk⟩ := loads s List.mem_cons_self
      have ho : k.InOrder := ordered s List.mem_cons_self k hk
      obtain ⟨l, hl, hlo, hget⟩ := ih (hb.overlaid ho)
        (fun t ht => loads t (List.mem_cons_of_mem s ht))
        (fun t ht => ordered t (List.mem_cons_of_mem s ht))
      refine ⟨l, ?_, hlo, fun leaf => ?_⟩
      · rw [stack, hk]
        exact hl
      · have hs : s.get? leaf = k.get leaf := by
          unfold get?
          rw [hk]
        rw [hget, Layer.get_overlaid ho, said, hs, Option.or_assoc]

/-- The first source that cannot be read is the one reported. -/
theorem stack_fails {below : Layer} {before after : List Source} {s : Source} {e : ConfigError}
    (loads : ∀ t ∈ before, t.Loads) (hs : s.loaded = .error e) :
    stack below (before ++ s :: after) = .error e := by
  induction before generalizing below with
  | nil =>
      rw [List.nil_append, stack, hs]
      rfl
  | cons t before ih =>
      obtain ⟨k, hk⟩ := loads t List.mem_cons_self
      rw [List.cons_append, stack, hk]
      exact ih fun u hu => loads u (List.mem_cons_of_mem t hu)

theorem exists_first_failing {ss : List Source} (h : ∃ s ∈ ss, ¬s.Loads) :
    ∃ before s after e, ss = before ++ s :: after ∧ (∀ t ∈ before, t.Loads) ∧
      s.loaded = .error e := by
  induction ss with
  | nil =>
      obtain ⟨s, hs, -⟩ := h
      cases hs
  | cons s ss ih =>
      cases hl : s.loaded with
      | error e =>
          refine ⟨[], s, ss, e, (List.nil_append _).symm, ?_, hl⟩
          intro t ht
          cases ht
      | ok l =>
          have hrest : ∃ t ∈ ss, ¬t.Loads := by
            obtain ⟨t, ht, hn⟩ := h
            rcases List.mem_cons.1 ht with rfl | ht
            · exact absurd ⟨l, hl⟩ hn
            · exact ⟨t, ht, hn⟩
          obtain ⟨before, t, after, e, rfl, hb, he⟩ := ih hrest
          refine ⟨s :: before, t, after, e, rfl, ?_, he⟩
          exact List.forall_mem_cons.2 ⟨⟨l, hl⟩, hb⟩

end Stack

/-! ### Combining them -/

section Combine

/-- On every setting the layer says what the source says that decides it, and nothing if no source
mentions it. -/
def Composes (l : Layer) (sources : List Source) : Prop :=
  ∀ {α : Type} (leaf : Leaf α) (a : α), l.get leaf = some a ↔ Decides sources leaf a

/-- Sources that can all be read compose to a layer, which is the one that is resolved. -/
theorem exists_composes {sources : List Source} (ordered : ∀ s ∈ sources, s.InOrder)
    (loads : ∀ s ∈ sources, s.Loads) :
    ∃ l : Layer, l.InOrder ∧ Composes l sources ∧ combine sources = l.resolve := by
  have mem {s : Source} : s ∈ sorted sources → s ∈ sources := (perm_sorted sources).mem_iff.1
  obtain ⟨l, hl, ho, hget⟩ := stack_ok (show Layer.InOrder {} from .nil)
    (fun s hs => loads s (mem hs)) (fun s hs => ordered s (mem hs))
  refine ⟨l, ho, ?_, ?_⟩
  · intro α leaf a
    -- below the first source is the empty layer
    have hnone : Layer.get {} leaf = none := by cases leaf <;> rfl
    rw [decides_iff, hget, hnone, Option.or_none]
  · unfold combine
    rw [hl]
    rfl

/-- Layers that the same sources compose to say the same on every setting. -/
theorem Composes.get_eq {k l : Layer} {ss ts : List Source} (hk : Composes k ss)
    (hl : Composes l ts) {α : Type} {leaf : Leaf α}
    (h : ∀ a, Decides ss leaf a ↔ Decides ts leaf a) : k.get leaf = l.get leaf :=
  Option.ext fun a => (hk leaf a).trans ((h a).trans (hl leaf a).symm)

/-- Sources that stand in the same order within each rank combine to the same. -/
theorem combine_reordered {ss ts : List Source} (h : ∀ rank, ofRank rank ss = ofRank rank ts) :
    combine ss = combine ts := by
  have hs : sorted ss = sorted ts := by
    rw [sorted_eq, sorted_eq]
    exact List.flatMap_congr fun rank _ => h rank
  unfold combine
  rw [hs]

theorem forall_replaced {P : Source → Prop} {before after : List Source} {s s' : Source}
    (h : ∀ t ∈ before ++ s :: after, P t) (hs : P s') : ∀ t ∈ before ++ s' :: after, P t := by
  obtain ⟨hbefore, hafter⟩ := List.forall_mem_append.1 h
  obtain ⟨-, hafter⟩ := List.forall_mem_cons.1 hafter
  exact List.forall_mem_append.2 ⟨hbefore, List.forall_mem_cons.2 ⟨hs, hafter⟩⟩

/-- Sources combine to the same if one of them is replaced by one that differs only where others
override it. -/
theorem combine_replaced {before after : List Source} {s s' : Source}
    (ordered : ∀ t ∈ before ++ s :: after, t.InOrder) (loads : ∀ t ∈ before ++ s :: after, t.Loads)
    (hr : s'.rank = s.rank) (ho : s'.InOrder) (hl : s'.Loads)
    (h : ∀ {α : Type} (leaf : Leaf α), s'.get? leaf = s.get? leaf ∨
      ∃ t : Source, t.Overrides s.rank before after ∧ t.get? leaf ≠ none) :
    combine (before ++ s' :: after) = combine (before ++ s :: after) := by
  obtain ⟨k, hko, hkc, hk⟩ :=
    exists_composes (forall_replaced ordered ho) (forall_replaced loads hl)
  obtain ⟨l, hlo, hlc, hl⟩ := exists_composes ordered loads
  rw [hk, hl]
  exact Layer.resolve_congr hko hlo fun leaf => hkc.get_eq hlc (decides_replaced hr (h leaf))

/-- The first source that cannot be read decides if there is one. -/
theorem combine_fails {sources : List Source} (h : ∃ s ∈ sources, ¬s.Loads) :
    ∃ before s after e, sorted sources = before ++ s :: after ∧ (∀ t ∈ before, t.Loads) ∧
      s.loaded = .error e ∧ combine sources = .error e := by
  have hsorted : ∃ s ∈ sorted sources, ¬s.Loads := by
    obtain ⟨s, hs, hn⟩ := h
    exact ⟨s, (perm_sorted sources).mem_iff.2 hs, hn⟩
  obtain ⟨before, s, after, e, heq, hb, he⟩ := exists_first_failing hsorted
  refine ⟨before, s, after, e, heq, hb, he, ?_⟩
  unfold combine
  rw [heq, stack_fails hb he]
  rfl

end Combine

/-! ### The laws of precedence -/

section Precedence

/-- How sources of configuration combine, in whatever order they are given. -/
structure Precedence (sources : List Source) : Prop where
  /-- A setting that a source mentions has a source that decides it. -/
  decided : ∀ s ∈ sources, ∀ {α : Type} (leaf : Leaf α), s.get? leaf ≠ none →
    ∃ a, Decides sources leaf a
  /-- Sources that can all be read compose to a layer. -/
  composed : (∀ s ∈ sources, s.Loads) → ∃ l : Layer, l.InOrder ∧ Composes l sources
  /-- The outcome is what that layer resolves to. -/
  outcome : (∀ s ∈ sources, s.Loads) → ∀ l : Layer, l.InOrder → Composes l sources →
    combine sources = l.resolve
  /-- Sources of different ranks may change places. -/
  reordered : ∀ others, (∀ rank, ofRank rank others = ofRank rank sources) →
    combine others = combine sources
  /-- What a source says on settings on which others override it does not matter, be it invalid,
  nor does it matter whether a section of it is empty or missing. -/
  replaced : (∀ s ∈ sources, s.Loads) → ∀ before s after, sources = before ++ s :: after →
    ∀ s' : Source, s'.rank = s.rank → s'.Loads → s'.InOrder →
      (∀ {α : Type} (leaf : Leaf α), s'.get? leaf = s.get? leaf ∨
        ∃ t : Source, t.Overrides s.rank before after ∧ t.get? leaf ≠ none) →
      combine (before ++ s' :: after) = combine sources
  /-- Of the sources that cannot be read the first one in ascending order is reported. -/
  failed : (∃ s ∈ sources, ¬s.Loads) →
    ∃ before s after e, sorted sources = before ++ s :: after ∧ (∀ t ∈ before, t.Loads) ∧
      s.loaded = .error e ∧ combine sources = .error e

/-- **Sources combine to what the deciding source says on each setting.** -/
theorem precedence (sources : List Source) (ordered : ∀ s ∈ sources, s.InOrder) :
    Precedence sources where
  decided _ hs _ _ h := exists_decides hs h
  composed loads := by
    obtain ⟨l, ho, hc, -⟩ := exists_composes ordered loads
    exact ⟨l, ho, hc⟩
  outcome loads l ho hc := by
    obtain ⟨k, hko, hkc, heq⟩ := exists_composes ordered loads
    rw [heq]
    exact Layer.resolve_congr hko ho fun leaf => hkc.get_eq hc fun a => Iff.rfl
  reordered _ h := combine_reordered h
  replaced loads before s after heq s' hr hl ho h := by
    subst heq
    exact combine_replaced ordered loads hr ho hl h
  failed h := combine_fails h

/-- A layer that sets the payload limit only. -/
def limiting (n : Int) : Layer := { policy := some { payload := some { maxBytes := some n } } }

/-- A negative payload limit in a file does no harm if the environment gives another, although the
file is given after it. -/
theorem precedence_negative_limit :
    combine [Source.mk .environment (.ok (limiting 64)), Source.mk .file (.ok (limiting (-1)))] =
      (limiting 64).resolve := by
  have ordered (rank : Rank) (n : Int) : InOrder ⟨rank, .ok (limiting n)⟩ := by
    rintro l ⟨rfl⟩
    exact .nil
  have loads (rank : Rank) (n : Int) : Loads ⟨rank, .ok (limiting n)⟩ := ⟨_, rfl⟩
  refine (precedence _ ?_).outcome ?_ (limiting 64) .nil fun leaf a => ?_
  · exact List.forall_mem_cons.2 ⟨ordered _ _, List.forall_mem_singleton.2 (ordered _ _)⟩
  · exact List.forall_mem_cons.2 ⟨loads _ _, List.forall_mem_singleton.2 (loads _ _)⟩
  · rw [decides_iff, said_sorted]
    cases leaf <;> rfl

/-- The tables of files are in order. -/
theorem inOrder_file (f : File) : (file f).InOrder :=
  fun _ h => File.inOrder_of_layer h

/-- The tables of environments are in order. -/
theorem inOrder_environment (vs : Variables) : (environment vs).InOrder :=
  fun _ h => Variables.inOrder_of_layer h

end Precedence

end PacketLog.Config.Source
