import PacketLog.Proofs.Matching

/-!
# Proofs — Grammar

Which texts are topic filters, and what is wrong with the others.

* `Level.exists_parse_iff`: which parts are levels.
* `Pattern.exists_parse_iff`: the texts that are parsed are the well-formed ones.
* `parseLevels_eq_error_iff`: the fault of parts is that of the leftmost one that is no level.
* `Pattern.parse_eq_error_iff`: the fault of a text.
* `Pattern.parse_exact`: all there is to say about parsing a text.
-/

namespace PacketLog.Topic

/-! ### Parts -/

/-- The part of a filter is a name or a wildcard, and `last` if it stands for any number of
levels. -/
inductive PartOk (last : Prop) (part : List Char) : Prop where
  | name (hm : '#' ∉ part) (hs : '+' ∉ part)
  | single (h : part = ['+'])
  | multi (h : part = ['#']) (hl : last)

theorem Level.exists_parse_iff {last : Bool} {part : List Char} :
    (∃ l, Level.parse last part = .ok l) ↔ PartOk (last = true) part := by
  constructor
  · rintro ⟨l, h⟩
    cases Level.written_of_parse h with
    | multi hl => exact .multi rfl hl
    | single => exact .single rfl
    | name hm hs => exact .name hm hs
  · rintro (⟨hm, hs⟩ | rfl | ⟨rfl, rfl⟩)
    · refine ⟨.name part, ?_⟩
      unfold Level.parse
      rw [if_neg (by simpa using hm), if_neg (by simpa using hs)]
    · exact ⟨.single, rfl⟩
    · exact ⟨.multi, rfl⟩

/-! ### Filters -/

/-- Every part is one of a filter, where nothing comes after the last. -/
def PartsOk (parts : List (List Char)) : Prop :=
  ∀ before part after, parts = before ++ part :: after → PartOk (after = []) part

theorem partsOk_nil : PartsOk [] := by
  intro before part after h
  cases before <;> cases h

theorem partsOk_cons {part : List Char} {parts : List (List Char)} :
    PartsOk (part :: parts) ↔ PartOk (parts = []) part ∧ PartsOk parts := by
  constructor
  · intro h
    refine ⟨h [] part parts rfl, fun before p after hp => ?_⟩
    exact h (part :: before) p after (congrArg (part :: ·) hp)
  · rintro ⟨hp, h⟩ before p after heq
    cases before with
    | nil =>
        obtain ⟨rfl, rfl⟩ := List.cons.inj heq
        exact hp
    | cons b before => exact h before p after (List.cons.inj heq).2

theorem exists_parseLevels_iff {parts : List (List Char)} :
    (∃ ls, parseLevels parts = .ok ls) ↔ PartsOk parts := by
  induction parts with
  | nil => exact ⟨fun _ => partsOk_nil, fun _ => ⟨[], rfl⟩⟩
  | cons part parts ih =>
      have hl : (∃ l, Level.parse parts.isEmpty part = .ok l) ↔ PartOk (parts = []) part := by
        rw [Level.exists_parse_iff, List.isEmpty_iff]
      rw [partsOk_cons, ← ih, ← hl, parseLevels]
      constructor
      · rintro ⟨ls, h⟩
        cases hp : Level.parse parts.isEmpty part with
        | error e =>
            rw [hp] at h
            cases h
        | ok l =>
            cases hps : parseLevels parts with
            | error e =>
                rw [hp, hps] at h
                cases h
            | ok ls => exact ⟨⟨l, rfl⟩, ls, rfl⟩
      · rintro ⟨⟨l, hp⟩, ls, hps⟩
        exact ⟨l :: ls, by rw [hp, hps]; rfl⟩

/-- The text is a topic filter: it is not empty and has no NUL in it, a wildcard is a level of its
own, and the one for any number of levels is the last. -/
structure WellFormed (text : String) : Prop where
  nonempty : text ≠ ""
  noNul    : '\x00' ∉ text.toList
  parts    : PartsOk (text.toList.splitOn '/')

theorem toList_eq_nil_iff {text : String} : text.toList = [] ↔ text = "" := by
  rw [← String.toList_inj]
  rfl

/-- **The texts that are parsed are the well-formed ones.** -/
theorem Pattern.exists_parse_iff {text : String} :
    (∃ p, parse text = .ok p) ↔ WellFormed text := by
  unfold parse
  by_cases he : text.toList = []
  · rw [if_pos he]
    refine ⟨?_, fun h => absurd (toList_eq_nil_iff.1 he) h.nonempty⟩
    rintro ⟨p, h⟩
    cases h
  by_cases hn : '\x00' ∈ text.toList
  · rw [if_neg he, if_pos (List.contains_iff_mem.mpr hn)]
    refine ⟨?_, fun h => absurd hn h.noNul⟩
    rintro ⟨p, h⟩
    cases h
  · rw [if_neg he, if_neg (by simpa using hn), levelsOf_eq_splitOn]
    constructor
    · rintro ⟨p, h⟩
      refine ⟨fun ht => he (toList_eq_nil_iff.2 ht), hn, exists_parseLevels_iff.1 ?_⟩
      cases hl : parseLevels (text.toList.splitOn '/') with
      | error e =>
          rw [hl] at h
          cases h
      | ok ls => exact ⟨ls, rfl⟩
    · intro h
      obtain ⟨ls, hl⟩ := exists_parseLevels_iff.2 h.parts
      exact ⟨⟨text, ls⟩, by rw [hl]; rfl⟩

/-! ### Faults -/

/-- What is wrong with a part that is no level. -/
def faultOf (part : List Char) : PatternError :=
  if '#' ∈ part then .misplacedMulti else .mixedSingle

theorem Level.eq_faultOf {last : Bool} {part : List Char} {e : PatternError}
    (h : Level.parse last part = .error e) : e = faultOf part := by
  unfold Level.parse at h
  unfold faultOf
  by_cases hm : '#' ∈ part
  · rw [if_pos (List.contains_iff_mem.mpr hm)] at h
    rw [if_pos hm]
    split at h
    · cases h
    · cases h
      rfl
  · rw [if_neg (by simpa using hm)] at h
    rw [if_neg hm]
    split at h
    · split at h
      · cases h
      · cases h
        rfl
    · cases h

theorem Level.parse_eq_error_iff {last : Bool} {part : List Char} {e : PatternError} :
    Level.parse last part = .error e ↔ ¬PartOk (last = true) part ∧ e = faultOf part := by
  rw [← Level.exists_parse_iff]
  constructor
  · intro h
    refine ⟨?_, Level.eq_faultOf h⟩
    rintro ⟨l, hl⟩
    cases h.symm.trans hl
  · rintro ⟨hn, rfl⟩
    cases hp : Level.parse last part with
    | ok l => exact absurd ⟨l, hp⟩ hn
    | error e => rw [Level.eq_faultOf hp]

/-- The fault of the leftmost part that is no level.  Those before it have something after them, so
none of them is the last. -/
inductive LeftmostFault (parts : List (List Char)) : PatternError → Prop where
  | intro (before : List (List Char)) (part : List Char) (after : List (List Char))
      (h : parts = before ++ part :: after) (hb : ∀ q ∈ before, PartOk False q)
      (hp : ¬PartOk (after = []) part) : LeftmostFault parts (faultOf part)

theorem not_leftmostFault_nil {e : PatternError} : ¬LeftmostFault [] e := by
  rintro ⟨before, bad, after, h, -, -⟩
  simp at h

theorem leftmostFault_cons {part : List Char} {parts : List (List Char)} {e : PatternError} :
    LeftmostFault (part :: parts) e ↔
      ¬PartOk (parts = []) part ∧ e = faultOf part ∨
        PartOk (parts = []) part ∧ LeftmostFault parts e := by
  constructor
  · rintro ⟨before, bad, after, h, hb, hp⟩
    cases before with
    | nil =>
        obtain ⟨rfl, rfl⟩ := List.cons.inj h
        exact .inl ⟨hp, rfl⟩
    | cons b before =>
        obtain ⟨rfl, rfl⟩ := List.cons.inj h
        obtain ⟨hpart, hb⟩ := List.forall_mem_cons.1 hb
        have hne : (before ++ bad :: after = []) = False := by simp
        exact .inr ⟨hne ▸ hpart, .intro before bad after rfl hb hp⟩
  · rintro (⟨hp, rfl⟩ | ⟨hp, before, bad, after, rfl, hb, hbad⟩)
    · exact .intro [] part parts rfl (List.forall_mem_nil _) hp
    · have hne : (before ++ bad :: after = []) = False := by simp
      exact .intro (part :: before) bad after rfl (List.forall_mem_cons.2 ⟨hne ▸ hp, hb⟩) hbad

/-- **Of several faults the leftmost is reported.** -/
theorem parseLevels_eq_error_iff {parts : List (List Char)} {e : PatternError} :
    parseLevels parts = .error e ↔ LeftmostFault parts e := by
  induction parts with
  | nil => exact ⟨nofun, fun h => absurd h not_leftmostFault_nil⟩
  | cons part parts ih =>
      have hok : (∃ l, Level.parse parts.isEmpty part = .ok l) ↔ PartOk (parts = []) part := by
        rw [Level.exists_parse_iff, List.isEmpty_iff]
      have hfault : ∀ e, Level.parse parts.isEmpty part = .error e ↔
          ¬PartOk (parts = []) part ∧ e = faultOf part := by
        intro e
        rw [Level.parse_eq_error_iff, List.isEmpty_iff]
      rw [leftmostFault_cons, ← ih, ← hfault, ← hok, parseLevels]
      cases Level.parse parts.isEmpty part with
      | error d => simp [bind, Except.bind]
      | ok l => cases parseLevels parts <;> simp [bind, Except.bind]

/-- What is wrong with a text.  Whether it is empty is looked at first, then whether there is a NUL
anywhere in it, and its parts only after that. -/
inductive Faulty (text : String) : PatternError → Prop where
  | empty (h : text = "") : Faulty text .empty
  | nul (h : '\x00' ∈ text.toList) : Faulty text .nul
  | part {e : PatternError} (hne : text ≠ "") (hn : '\x00' ∉ text.toList)
      (h : LeftmostFault (text.toList.splitOn '/') e) : Faulty text e

namespace Pattern

/-- **What is reported of a text is what is wrong with it.** -/
theorem parse_eq_error_iff {text : String} {e : PatternError} :
    parse text = .error e ↔ Faulty text e := by
  unfold parse
  by_cases he : text.toList = []
  · have ht : text = "" := toList_eq_nil_iff.1 he
    have hn : '\x00' ∉ text.toList := by simp [he]
    rw [if_pos he]
    constructor
    · rintro ⟨⟩
      exact .empty ht
    · rintro (- | hm | ⟨hne, -, -⟩)
      · rfl
      · exact absurd hm hn
      · exact absurd ht hne
  have ht : text ≠ "" := fun h => he (toList_eq_nil_iff.2 h)
  by_cases hn : '\x00' ∈ text.toList
  · rw [if_neg he, if_pos (List.contains_iff_mem.mpr hn)]
    constructor
    · rintro ⟨⟩
      exact .nul hn
    · rintro (h | - | ⟨-, hm, -⟩)
      · exact absurd h ht
      · rfl
      · exact absurd hn hm
  · rw [if_neg he, if_neg (by simpa using hn), levelsOf_eq_splitOn]
    have hp : (parseLevels (text.toList.splitOn '/') >>= fun levels => .ok ⟨text, levels⟩ :
        Except PatternError Pattern) = .error e ↔ LeftmostFault (text.toList.splitOn '/') e := by
      rw [← parseLevels_eq_error_iff]
      cases parseLevels (text.toList.splitOn '/') <;> simp [bind, Except.bind]
    rw [hp]
    constructor
    · exact .part ht hn
    · rintro (h | h | ⟨-, -, h⟩)
      · exact absurd h ht
      · exact absurd h hn
      · exact h

theorem text_of_parse {text : String} {p : Pattern} (h : parse text = .ok p) : p.text = text := by
  unfold parse at h
  split at h
  · cases h
  · split at h
    · cases h
    · cases hl : parseLevels (levelsOf text.toList) with
      | error e => simp [hl, bind, Except.bind] at h
      | ok ls =>
          simp only [hl, bind, Except.bind, Except.ok.injEq] at h
          rw [← h]

end Pattern

/-- Nothing comes after the level for any number of levels. -/
theorem WrittenLevels.eq_nil_of_multi {ls before after : List Level} {parts : List (List Char)}
    (h : WrittenLevels ls parts) (hm : ls = before ++ .multi :: after) : after = [] := by
  induction h generalizing before with
  | nil => simp at hm
  | @cons l part ls parts hw rest ih =>
      cases before with
      | nil =>
          obtain ⟨rfl, rfl⟩ := List.cons.inj hm
          cases hw with
          | multi hl =>
              rw [List.isEmpty_iff] at hl
              subst hl
              cases rest
              rfl
      | cons b before => exact ih (List.cons.inj hm).2

/-- **Parsing accepts exactly the topic filters.**  What is accepted has the text's own parts as its
levels, one for one, and of what is refused the first fault is reported. -/
theorem Pattern.parse_exact (text : String) :
    ((∃ p, parse text = .ok p) ↔ WellFormed text) ∧
    (∀ p, parse text = .ok p → p.text = text ∧
      WrittenLevels p.levels (text.toList.splitOn '/') ∧
      ∀ before after, p.levels = before ++ .multi :: after → after = []) ∧
    ∀ e, parse text = .error e ↔ Faulty text e := by
  refine ⟨exists_parse_iff, fun p h => ?_, fun e => parse_eq_error_iff⟩
  have hw := written_of_parse h
  exact ⟨text_of_parse h, hw, fun before after hm => hw.eq_nil_of_multi hm⟩

/-- A filter with an empty level, and a text with two bad parts, the first of which has both signs
in it. -/
theorem Pattern.parse_exact_signs :
    (∃ p, parse "+//#" = .ok p ∧ p.text = "+//#" ∧
      WrittenLevels p.levels [['+'], [], ['#']]) ∧
    parse "a/+#/b+/#" = .error .misplacedMulti := by
  have hparts : "+//#".toList.splitOn '/' = [['+'], [], ['#']] := by decide +kernel
  have hbad : "a/+#/b+/#".toList.splitOn '/' = [['a'], ['+', '#'], ['b', '+'], ['#']] := by
    decide +kernel
  have hwell : WellFormed "+//#" := by
    refine ⟨by decide, by decide +kernel, hparts ▸ ?_⟩
    refine partsOk_cons.2 ⟨.single rfl, partsOk_cons.2 ⟨.name (by simp) (by simp), ?_⟩⟩
    exact partsOk_cons.2 ⟨.multi rfl rfl, partsOk_nil⟩
  obtain ⟨accepts, correspond, -⟩ := parse_exact "+//#"
  obtain ⟨p, hp⟩ := accepts.2 hwell
  obtain ⟨htext, hlevels, -⟩ := correspond p hp
  refine ⟨⟨p, hp, htext, hparts ▸ hlevels⟩, ?_⟩
  refine ((parse_exact "a/+#/b+/#").2.2 _).2 (.part (by decide) (by decide +kernel) ?_)
  refine hbad ▸ .intro [['a']] ['+', '#'] _ rfl ?_ ?_
  · simp only [List.forall_mem_singleton]
    exact .name (by decide) (by decide)
  · rintro (⟨hm, -⟩ | h | ⟨h, -⟩)
    · exact hm (by decide)
    · cases h
    · cases h

end PacketLog.Topic
