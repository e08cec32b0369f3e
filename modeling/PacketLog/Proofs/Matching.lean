import Mathlib.Data.List.Forall2
import PacketLog.Topic.Pattern

/-!
# Proofs — Matching

Which topics a filter selects, told by the two texts alone.

* `levelsOf_eq_splitOn`: levels are the parts between slashes.
* `selectsLevels_iff`: the levels that are parsed select what the parts correspond to.
* `Pattern.selects_iff`: a filter selects exactly the topics it matches, which for a filter without
  wildcards is the one it spells, and a filter that ends in `/#` selects its parent and everything
  below that.
-/

namespace PacketLog.Topic

/-! ### Levels -/

theorem levelsOf_eq_splitOn (cs : List Char) : levelsOf cs = cs.splitOn '/' := by
  induction cs with
  | nil => rfl
  | cons c cs ih =>
      rw [levelsOf, List.splitOn_cons_eq_if_modifyHead, ih]
      by_cases hc : c = '/'
      · rw [if_pos hc, if_pos (beq_iff_eq.mpr hc)]
      · rw [if_neg hc, if_neg (by simpa using hc)]
        cases hl : cs.splitOn '/' with
        | nil => exact absurd hl (List.splitOn_ne_nil '/' cs)
        | cons l ls => rfl

/-- Texts with the same parts are the same. -/
theorem eq_of_splitOn_eq {s t : String} (h : s.toList.splitOn '/' = t.toList.splitOn '/') :
    s = t := by
  have hl := congrArg (['/'].intercalate ·) h
  simp only [List.intercalate_splitOn] at hl
  exact String.toList_inj.mp hl

/-- How a level of a filter is written, where `last` says whether it may be the one for any number
of levels. -/
inductive Level.Written (last : Bool) : Level → List Char → Prop where
  | multi (h : last = true) : Written last .multi ['#']
  | single : Written last .single ['+']
  | name {cs : List Char} (hm : '#' ∉ cs) (hs : '+' ∉ cs) : Written last (.name cs) cs

theorem Level.written_of_parse {last : Bool} {part : List Char} {l : Level}
    (h : Level.parse last part = .ok l) : Written last l part := by
  unfold Level.parse at h
  by_cases hm : '#' ∈ part
  · rw [if_pos (List.contains_iff_mem.mpr hm)] at h
    by_cases hp : part = ['#'] ∧ last = true
    · obtain ⟨rfl, hl⟩ := hp
      simp only [hl] at h
      cases h
      exact .multi hl
    · rw [if_neg (by simpa using hp)] at h
      cases h
  · rw [if_neg (by simpa using hm)] at h
    by_cases hs : '+' ∈ part
    · rw [if_pos (List.contains_iff_mem.mpr hs)] at h
      by_cases hp : part = ['+']
      · subst hp
        cases h
        exact .single
      · rw [if_neg hp] at h
        cases h
    · rw [if_neg (by simpa using hs)] at h
      cases h
      exact .name hm hs

/-- The levels are written as the parts, and only the last may stand for any number of levels. -/
inductive WrittenLevels : List Level → List (List Char) → Prop where
  | nil : WrittenLevels [] []
  | cons {l : Level} {part : List Char} {ls : List Level} {parts : List (List Char)}
      (h : l.Written parts.isEmpty part) (rest : WrittenLevels ls parts) :
      WrittenLevels (l :: ls) (part :: parts)

theorem written_of_parseLevels {parts : List (List Char)} {ls : List Level}
    (h : parseLevels parts = .ok ls) : WrittenLevels ls parts := by
  induction parts generalizing ls with
  | nil =>
      cases h
      exact .nil
  | cons part parts ih =>
      rw [parseLevels] at h
      cases hl : Level.parse parts.isEmpty part with
      | error e => simp [hl, bind, Except.bind] at h
      | ok l =>
          cases hls : parseLevels parts with
          | error e => simp [hl, hls, bind, Except.bind] at h
          | ok ls' =>
              simp only [hl, hls, bind, Except.bind, Except.ok.injEq] at h
              exact h ▸ .cons (Level.written_of_parse hl) (ih hls)

theorem Pattern.written_of_parse {text : String} {p : Pattern} (h : parse text = .ok p) :
    WrittenLevels p.levels (text.toList.splitOn '/') := by
  unfold parse at h
  split at h
  · cases h
  · split at h
    · cases h
    · cases hl : parseLevels (levelsOf text.toList) with
      | error e => simp [hl, bind, Except.bind] at h
      | ok ls =>
          simp only [hl, bind, Except.bind, Except.ok.injEq] at h
          subst h
          exact written_of_parseLevels (levelsOf_eq_splitOn text.toList ▸ hl)

/-! ### What the parts match -/

/-- A part of a filter stands for a level of a topic. -/
def StandsFor (part level : List Char) : Prop := part = ['+'] ∨ part = level

/-- The parts of a filter correspond to the levels of a topic: one to one if there is no `#`, and
otherwise those before it to the first of them. -/
def Correspond (parts levels : List (List Char)) : Prop :=
  (['#'] ∉ parts ∧ List.Forall₂ StandsFor parts levels) ∨
    ∃ front own below, parts = front ++ [['#']] ∧ levels = own ++ below ∧
      List.Forall₂ StandsFor front own

theorem correspond_nil {levels : List (List Char)} : Correspond [] levels ↔ levels = [] := by
  simp [Correspond]

theorem correspond_multi (levels : List (List Char)) : Correspond [['#']] levels :=
  .inr ⟨[], [], levels, rfl, rfl, .nil⟩

/-- A part other than `#` takes one level. -/
theorem correspond_cons {part : List Char} {parts levels : List (List Char)} (h : part ≠ ['#']) :
    Correspond (part :: parts) levels ↔
      ∃ level rest, levels = level :: rest ∧ StandsFor part level ∧ Correspond parts rest := by
  constructor
  · rintro (⟨hm, hl⟩ | ⟨front, own, below, hf, rfl, hl⟩)
    · obtain ⟨level, rest, hs, hr, rfl⟩ := List.forall₂_cons_left_iff.mp hl
      exact ⟨level, rest, rfl, hs, .inl ⟨fun hi => hm (List.mem_cons_of_mem _ hi), hr⟩⟩
    · cases front with
      | nil => exact absurd (List.cons.inj hf).1 h
      | cons f front =>
          obtain ⟨rfl, rfl⟩ := List.cons.inj hf
          obtain ⟨level, rest, hs, hr, rfl⟩ := List.forall₂_cons_left_iff.mp hl
          exact ⟨level, rest ++ below, rfl, hs, .inr ⟨front, rest, below, rfl, rfl, hr⟩⟩
  · rintro ⟨level, rest, rfl, hs, ⟨hm, hr⟩ | ⟨front, own, below, rfl, rfl, hr⟩⟩
    · exact .inl ⟨List.not_mem_cons_of_ne_of_not_mem h.symm hm, .cons hs hr⟩
    · exact .inr ⟨part :: front, level :: own, below, rfl, rfl, .cons hs hr⟩

theorem ne_of_not_mem {part : List Char} {c : Char} (h : c ∉ part) : part ≠ [c] := by
  rintro rfl
  exact h (List.mem_singleton_self c)

/-- **Levels select what the parts they are written as correspond to.** -/
theorem selectsLevels_iff {ls : List Level} {parts levels : List (List Char)}
    (h : WrittenLevels ls parts) : selectsLevels ls levels = true ↔ Correspond parts levels := by
  induction h generalizing levels with
  | nil => rw [selectsLevels, List.isEmpty_iff, correspond_nil]
  | cons hw rest ih =>
      cases hw with
      | multi hl =>
          -- the only part that may be `#` is the last
          rw [List.isEmpty_iff] at hl
          subst hl
          exact iff_of_true rfl (correspond_multi levels)
      | single =>
          rw [correspond_cons (by decide)]
          cases levels with
          | nil => simp [selectsLevels]
          | cons level levels => simp [selectsLevels, StandsFor, ih]
      | @name part hm hs =>
          rw [correspond_cons (ne_of_not_mem hm)]
          cases levels with
          | nil => simp [selectsLevels]
          | cons level levels => simp [selectsLevels, StandsFor, ih, ne_of_not_mem hs]

/-- The first part is a wildcard. -/
def BeginsWild (parts : List (List Char)) : Prop :=
  parts.head? = some ['+'] ∨ parts.head? = some ['#']

theorem startsWild_iff {p : Pattern} {parts : List (List Char)}
    (h : WrittenLevels p.levels parts) : p.startsWild = true ↔ BeginsWild parts := by
  unfold Pattern.startsWild BeginsWild
  generalize p.levels = ls at h
  cases h with
  | nil => simp
  | cons hw rest =>
      cases hw with
      | multi hl => simp [Level.isWildcard]
      | single => simp [Level.isWildcard]
      | @name part hm hs => simp [Level.isWildcard, ne_of_not_mem hm, ne_of_not_mem hs]

/-! ### Filters -/

/-- The filter of this text matches the topic.  One that begins with a wildcard matches no topic
that begins with a dollar sign. -/
def Matches (text topic : String) : Prop :=
  ¬(topic.toList.head? = some '$' ∧ BeginsWild (text.toList.splitOn '/')) ∧
    Correspond (text.toList.splitOn '/') (topic.toList.splitOn '/')

theorem selects_iff_matches {text : String} {p : Pattern} (h : Pattern.parse text = .ok p)
    (topic : String) : p.selects topic = true ↔ Matches text topic := by
  have hw := Pattern.written_of_parse h
  unfold Pattern.selects Matches
  rw [levelsOf_eq_splitOn, ← startsWild_iff hw, ← selectsLevels_iff hw]
  by_cases hd : topic.toList.head? = some '$' ∧ p.startsWild = true
  · simp [hd]
  · rw [if_neg (by simpa using hd)]
    exact (and_iff_right hd).symm

/-- Without wildcards the parts correspond to themselves alone. -/
theorem correspond_iff_eq {parts levels : List (List Char)} (hs : ['+'] ∉ parts)
    (hm : ['#'] ∉ parts) : Correspond parts levels ↔ parts = levels := by
  induction parts generalizing levels with
  | nil => rw [correspond_nil, eq_comm]
  | cons part parts ih =>
      obtain ⟨hs₁, hs⟩ := List.ne_and_not_mem_of_not_mem_cons hs
      obtain ⟨hm₁, hm⟩ := List.ne_and_not_mem_of_not_mem_cons hm
      rw [correspond_cons hm₁.symm]
      simp [StandsFor, hs₁.symm, ih hs hm, eq_comm]

/-- **A filter without wildcards matches the topic it spells and no other.** -/
theorem matches_iff_eq {text topic : String} (hs : ['+'] ∉ text.toList.splitOn '/')
    (hm : ['#'] ∉ text.toList.splitOn '/') : Matches text topic ↔ topic = text := by
  have hw : ¬BeginsWild (text.toList.splitOn '/') := by
    rintro (h | h)
    · exact hs (List.mem_of_mem_head? h)
    · exact hm (List.mem_of_mem_head? h)
  unfold Matches
  rw [correspond_iff_eq hs hm]
  constructor
  · rintro ⟨-, h⟩
    exact (eq_of_splitOn_eq h).symm
  · rintro rfl
    exact ⟨fun h => hw h.2, rfl⟩

theorem not_beginsWild {cs : List Char} (h : cs.head? = some '$') :
    ¬BeginsWild (cs.splitOn '/') := by
  cases cs with
  | nil => cases h
  | cons c cs =>
      obtain rfl : c = '$' := by simpa using h
      rw [List.splitOn_cons_eq_if_modifyHead, if_neg (by decide)]
      cases hl : cs.splitOn '/' with
      | nil => exact absurd hl (List.splitOn_ne_nil '/' cs)
      | cons l ls => simp [BeginsWild]

/-- A filter that ends in `/#` matches what its parent spells, alone or with levels after it. -/
theorem matches_below {parent topic : String}
    (h : topic = parent ∨ ∃ child, topic = parent ++ "/" ++ child) :
    Matches (parent ++ "/#") topic := by
  have htext : (parent ++ "/#").toList = parent.toList ++ '/' :: ['#'] := by
    rw [String.toList_append]
    rfl
  have hparts : (parent ++ "/#").toList.splitOn '/' =
      parent.toList.splitOn '/' ++ [['#']] := by
    rw [htext, List.splitOn_append_cons_self]
    rfl
  obtain ⟨below, hlevels⟩ : ∃ below, topic.toList.splitOn '/' =
      parent.toList.splitOn '/' ++ below := by
    rcases h with rfl | ⟨child, rfl⟩
    · exact ⟨[], (List.append_nil _).symm⟩
    · refine ⟨child.toList.splitOn '/', ?_⟩
      rw [← List.splitOn_append_cons_self]
      simp
  refine ⟨fun ⟨hd, hw⟩ => not_beginsWild ?_ hw, ?_⟩
  · -- the filter begins as the topic does, unless both begin with the slash
    rcases h with rfl | ⟨child, rfl⟩
    · rw [htext, List.head?_append, hd]
      rfl
    · cases hp : parent.toList with
      | nil => simp [hp] at hd
      | cons c cs => simpa [hp] using hd
  · rw [hparts, hlevels]
    exact .inr ⟨_, _, below, rfl, rfl, List.forall₂_same.mpr fun _ _ => .inr rfl⟩

/-- **A filter selects exactly the topics it matches.** -/
theorem Pattern.selects_iff {text : String} {p : Pattern} (h : parse text = .ok p) :
    (∀ topic, p.selects topic = true ↔ Matches text topic) ∧
    (['+'] ∉ text.toList.splitOn '/' → ['#'] ∉ text.toList.splitOn '/' →
      ∀ topic, p.selects topic = true ↔ topic = text) ∧
    ∀ parent, text = parent ++ "/#" → p.selects parent = true ∧
      ∀ child, p.selects (parent ++ "/" ++ child) = true := by
  refine ⟨selects_iff_matches h, fun hs hm topic => ?_, ?_⟩
  · rw [selects_iff_matches h, matches_iff_eq hs hm]
  · rintro parent rfl
    simp only [selects_iff_matches h]
    exact ⟨matches_below (.inl rfl), fun child => matches_below (.inr ⟨child, rfl⟩)⟩

/-- A filter with an empty level and both wildcards selects a topic two levels below it, and no
topic that begins with a dollar sign. -/
theorem Pattern.selects_iff_empty_level :
    ∃ p, parse "+//#" = .ok p ∧ p.selects "a//b/c" = true ∧ p.selects "$a//b" = false := by
  have h : parse "+//#" = .ok ⟨"+//#", [.single, .name [], .multi]⟩ := by decide +kernel
  have hm : Matches "+//#" "a//b/c" := by
    have hd : "a//b/c".toList.head? ≠ some '$' := by decide +kernel
    refine ⟨fun h => hd h.1, .inr ⟨[['+'], []], [['a'], []], [['b'], ['c']], ?_, ?_, ?_⟩⟩
    · decide +kernel
    · decide +kernel
    · exact .cons (.inl rfl) (.cons (.inr rfl) .nil)
  have hn : ¬Matches "+//#" "$a//b" := fun hm => hm.1 ⟨by decide +kernel, .inl (by decide +kernel)⟩
  have iff := (selects_iff h).1
  exact ⟨_, h, (iff _).mpr hm, Bool.eq_false_iff.mpr fun hs => hn ((iff _).mp hs)⟩

end PacketLog.Topic
