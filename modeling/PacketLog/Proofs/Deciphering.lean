import PacketLog.Proofs.Calendar
import PacketLog.Proofs.Layout
import PacketLog.Proofs.Tokens

/-!
# Proofs — Deciphering

A reader of the text form of a line, who knows how values are written but not what the record was.

* `Line.reads_value`: every value is read as what it shows.
* `Line.readable_fields`: no word of a line could be taken for something else.
* `Line.read?_lineText`: every line is read as what its fields show.
-/

namespace PacketLog.Line

open Text (Reader Rest Reads EndsRun endsRun_nil endsRun_cons many many_flatMap)

/-! ### What a line shows -/

/-- What stands between two commas of a list. -/
inductive Item where
  | single (t : Token)
  | filter (f : List Char) (qos : Token)
  | property (k v : List Char)
deriving DecidableEq

/-- What stands in the place of a value. -/
inductive Shown where
  | token (t : Token)
  | list (items : List Item)
deriving DecidableEq

/-- What is seen of a value. -/
def Value.shown : Value → Shown
  | .atom a        => .token a.shown
  | .list as       => .list (as.map fun a => .single a.shown)
  | .filters fs    =>
    .list (fs.map fun (f, q) => .filter f.toList (Atom.ofOption (.number ·.code) q).shown)
  | .properties ps => .list (ps.map fun (k, v) => .property k.toList v.toList)

/-- What is seen of a field. -/
def Field.shown (f : Field) : String × Shown := (f.key, f.value.shown)

/-! ### Reading a line -/

/-- What `item` reads after a sign. -/
def after {α : Type} (sign : Char) (item : Reader α) : Reader α
  | [] => none
  | c :: r => if c = sign then (item r).map fun (a, left) => (a, left.cons) else none

/-- An item of a list.  A colon or an equals sign tells that a quoted text is not all of it. -/
def item? : Reader Item := fun cs =>
  match token? cs with
  | none => none
  | some (.quoted s, ⟨':' :: r, shorter⟩) =>
    (token? r).map fun (t, left) =>
      (.filter s t, left.of (Nat.le_of_lt (Nat.lt_of_succ_lt shorter)))
  | some (.quoted s, ⟨'=' :: r, shorter⟩) =>
    (after '"' Text.quoted? r).map fun (t, left) =>
      (.property s t, left.of (Nat.le_of_lt (Nat.lt_of_succ_lt shorter)))
  | some (t, rest) => some (.single t, rest)

/-- The items of a list up to its closing bracket. -/
def items? : Reader (List Item) := fun cs =>
  match cs with
  | ']' :: r => some ([], .tail r)
  | cs =>
    match item? cs with
    | none => none
    | some (i, ⟨r, shorter⟩) =>
      match h : many (after ',' item?) [i] r with
      | (is, ']' :: s) => some (is, ⟨s, by
          have bound := Text.length_many_le (after ',' item?) [i] r
          rw [h] at bound
          exact Nat.lt_trans bound shorter⟩)
      | _ => none

/-- A value. -/
def shown? : Reader Shown
  | '[' :: r => (items? r).map fun (is, left) => (.list is, left.cons)
  | cs => (token? cs).map fun (t, left) => (.token t, left)

/-- A field: its name up to the equals sign, and its value. -/
def field? : Reader (String × Shown) := fun cs =>
  match h : cs.dropWhile (· ≠ '=') with
  | [] => none
  | _ :: r =>
    (shown? r).map fun (v, left) =>
      ((String.ofList (cs.takeWhile (· ≠ '=')), v),
        left.of (Nat.le_of_lt (Text.lt_of_dropWhile_eq h)))

/-- The fields of a line. -/
def read? (text : String) : Option (List (String × Shown)) :=
  match field? text.toList with
  | none => none
  | some (f, ⟨rest, _⟩) =>
    match many (after ' ' field?) [f] rest with
    | (fs, []) => some fs
    | _        => none

/-! ### Values -/

/-- The value has no word that could be taken for something else. -/
def Value.Readable (v : Value) : Prop := ∀ a ∈ v.atoms, a.Readable

/-- The name ends at the equals sign, and the value can be read. -/
structure Field.Readable (f : Field) : Prop where
  key   : '=' ∉ f.key.toList
  value : f.value.Readable

section Values

variable {rest : List Char}

/-- What stands after an item of a list. -/
def EndsItem (rest : List Char) : Prop := ∃ c r, rest = c :: r ∧ (c = ',' ∨ c = ']')

theorem EndsItem.endsWord (h : EndsItem rest) : EndsWord rest := by
  obtain ⟨c, r, rfl, rfl | rfl⟩ := h
  · exact endsRun_cons rfl
  · exact endsRun_cons rfl

theorem reads_single {t : Token} {cs : List Char} (h : Reads token? cs t rest)
    (hr : EndsItem rest) : Reads item? cs (.single t) rest := by
  obtain ⟨shorter, h⟩ := h
  refine ⟨shorter, ?_⟩
  unfold item?
  rw [h]
  obtain ⟨c, r, rfl, rfl | rfl⟩ := hr
  · cases t <;> rfl
  · cases t <;> rfl

theorem reads_filter (f : List Char) {q : Atom} (hq : q.Readable) (hr : EndsItem rest) :
    Reads item? (Text.quote f ++ ':' :: q.toText ++ rest) (.filter f q.shown) rest := by
  obtain ⟨hs, hf⟩ := reads_quote f (':' :: q.toText ++ rest)
  obtain ⟨ht, hq⟩ := reads_atom hq hr.endsWord
  rw [List.append_assoc]
  refine ⟨Nat.lt_trans (Nat.lt_succ_of_lt ht) hs, ?_⟩
  unfold item?
  rw [hf]
  show Option.map _ (token? (q.toText ++ rest)) = _
  rw [hq]
  rfl

/-- What a sign stands before is read after it. -/
theorem reads_after {α : Type} {sign : Char} {item : Reader α} {cs : List Char} {a : α}
    (h : Reads item cs a rest) : Reads (after sign item) (sign :: cs) a rest := by
  obtain ⟨shorter, h⟩ := h
  exact ⟨Nat.lt_succ_of_lt shorter, by rw [after, if_pos rfl, h]; rfl⟩

theorem reads_property (k v rest : List Char) :
    Reads item? (Text.quote k ++ '=' :: Text.quote v ++ rest) (.property k v) rest := by
  obtain ⟨hs, hk⟩ := reads_quote k ('=' :: Text.quote v ++ rest)
  have hq : Text.quote v ++ rest = '"' :: (Text.escape v ++ '"' :: rest) := by
    simp [Text.quote]
  obtain ⟨ht, hv⟩ : Reads (after '"' Text.quoted?) (Text.quote v ++ rest) v rest := by
    rw [hq]
    exact reads_after (Text.reads_quoted v rest)
  rw [List.append_assoc]
  refine ⟨Nat.lt_trans (Nat.lt_succ_of_lt ht) hs, ?_⟩
  unfold item?
  rw [hk]
  show Option.map _ (after '"' Text.quoted? (Text.quote v ++ rest)) = _
  rw [hv]
  rfl

theorem intercalate_cons (sep : Char) (cs : List Char) (css : List (List Char)) :
    [sep].intercalate (cs :: css) = cs ++ css.flatMap (sep :: ·) := by
  induction css generalizing cs with
  | nil => simp
  | cons ds css ih =>
      rw [List.intercalate_cons_cons, ih, List.flatMap_cons]
      simp

/-- A list is its first item and those after a comma. -/
theorem reads_items_of_item {cs r : List Char} {i : Item} {is : List Item}
    (h : Reads item? cs i r) (hm : many (after ',' item?) [i] r = (is, ']' :: rest)) :
    Reads items? cs is rest := by
  obtain ⟨shorter, h⟩ := h
  have hl := Text.length_many_le (after ',' item?) [i] r
  rw [hm] at hl
  refine ⟨Nat.lt_trans hl shorter, ?_⟩
  unfold items?
  split
  · -- nothing is read from a bracket
    cases h
  · rw [h]
    simp only
    split
    · next hs =>
        rw [hm] at hs
        cases hs
        rfl
    · next hs => exact absurd hm (hs _ _)

section Lists

variable {α : Type} {f : α → List Char} {g : α → Item} {a : α} {as : List α}

/-- Items that are each read are read up to the closing bracket. -/
theorem reads_items (reads : ∀ b ∈ a :: as, ∀ r, EndsItem r → Reads item? (f b ++ r) (g b) r)
    (rest : List Char) :
    Reads items? (f a ++ as.flatMap (',' :: f ·) ++ ']' :: rest) (g a :: as.map g) rest := by
  have hend : EndsItem (']' :: rest) := ⟨_, _, rfl, .inr rfl⟩
  have ends : ∀ b ∈ as, ∀ r, EndsItem (',' :: f b ++ r) := fun b _ r => ⟨_, _, rfl, .inl rfl⟩
  have stops : after ',' item? (']' :: rest) = none := rfl
  have hm : many (after ',' item?) [g a] (as.flatMap (',' :: f ·) ++ ']' :: rest) =
      (g a :: as.map g, ']' :: rest) :=
    many_flatMap EndsItem [g a]
      (fun b hb r hr => reads_after (reads b (List.mem_cons_of_mem a hb) r hr)) ends hend stops
  have hr : EndsItem (as.flatMap (',' :: f ·) ++ ']' :: rest) := by
    cases as with
    | nil => exact hend
    | cons b as =>
        rw [List.flatMap_cons, List.append_assoc]
        exact ends b List.mem_cons_self _
  -- the first item is not after a comma, and all others are
  rw [List.append_assoc]
  exact reads_items_of_item (reads a List.mem_cons_self _ hr) hm

end Lists

/-- Items that are each read are read as a list. -/
theorem reads_bracketed {α : Type} {f : α → List Char} {g : α → Item} {as : List α}
    (reads : ∀ a ∈ as, ∀ r, EndsItem r → Reads item? (f a ++ r) (g a) r) (rest : List Char) :
    Reads shown? (bracketed (as.map f) ++ rest) (.list (as.map g)) rest := by
  cases as with
  | nil => exact ⟨Nat.lt_succ_of_lt (Nat.lt_succ_self _), rfl⟩
  | cons a as =>
      obtain ⟨shorter, h⟩ := reads_items reads rest
      have hb : bracketed ((a :: as).map f) ++ rest =
          '[' :: (f a ++ as.flatMap (',' :: f ·) ++ ']' :: rest) := by
        simp [bracketed, List.map_cons, intercalate_cons, List.flatMap_map]
      rw [hb]
      exact ⟨Nat.lt_succ_of_lt shorter, by rw [shown?, h]; rfl⟩

/-- What does not begin with a bracket is not a list. -/
theorem reads_token {cs : List Char} {t : Token} (h : Reads token? cs t rest) :
    Reads shown? cs (.token t) rest := by
  obtain ⟨shorter, h⟩ := h
  refine ⟨shorter, ?_⟩
  unfold shown?
  split
  · cases h
  · rw [h]
    rfl

/-- **A value is read as what it shows.** -/
theorem reads_value {v : Value} (hv : v.Readable) (hr : EndsWord rest) :
    Reads shown? (v.toText ++ rest) v.shown rest := by
  cases v with
  | atom a => exact reads_token (reads_atom (hv a List.mem_cons_self) hr)
  | list as =>
      exact reads_bracketed (fun a ha r hr =>
        reads_single (reads_atom (hv a ha) hr.endsWord) hr) rest
  | filters fs =>
      exact reads_bracketed (fun p hp r hr =>
        reads_filter p.1.toList (hv _ (List.mem_map_of_mem hp)) hr) rest
  | properties ps =>
      exact reads_bracketed (fun p _ r _ => reads_property p.1.toList p.2.toList r) rest

/-- A field is read with its name. -/
theorem reads_field {f : Field} (hread : f.Readable) (hr : EndsWord rest) :
    Reads field? (f.toText ++ rest) f.shown rest := by
  have hk : ∀ c ∈ f.key.toList, decide (c ≠ '=') = true := by
    intro c hc
    refine decide_eq_true ?_
    rintro rfl
    exact hread.key hc
  have he : EndsRun (· ≠ '=') ('=' :: (f.value.toText ++ rest)) := endsRun_cons (by simp)
  have hd := he.dropWhile hk
  have ht := he.takeWhile hk
  have hf : f.toText ++ rest = f.key.toList ++ '=' :: (f.value.toText ++ rest) := by
    simp [Field.toText]
  rw [hf]
  obtain ⟨shorter, h⟩ := reads_value hread.value hr
  refine ⟨Nat.lt_trans shorter (Text.lt_of_dropWhile_eq hd), ?_⟩
  unfold field?
  -- a field without an equals sign would have nothing left after its name
  split
  · next hs =>
      rw [hd] at hs
      cases hs
  · next hs =>
      rw [hd] at hs
      cases hs
      rw [h, ht, String.ofList_toList]
      rfl

end Values

/-! ### Lines -/

/-- A line is its first field and those after a space. -/
theorem read?_of_field {text : String} {r : List Char} {f : String × Shown}
    {fs : List (String × Shown)} (h : Reads field? text.toList f r)
    (hm : many (after ' ' field?) [f] r = (fs, [])) : read? text = some fs := by
  obtain ⟨shorter, h⟩ := h
  unfold read?
  rw [h]
  simp only [hm]

/-- A line is read field by field. -/
theorem read?_textForm {fs : List Field} (hn : fs ≠ []) (hf : ∀ f ∈ fs, f.Readable) :
    read? (String.ofList (textForm fs)) = some (fs.map Field.shown) := by
  cases fs with
  | nil => exact absurd rfl hn
  | cons f fs =>
      have ends : ∀ g ∈ fs, ∀ r, EndsWord (' ' :: g.toText ++ r) := fun _ _ _ => endsRun_cons rfl
      have hm : many (after ' ' field?) [f.shown] (fs.flatMap (' ' :: ·.toText) ++ []) =
          (f.shown :: fs.map Field.shown, []) :=
        many_flatMap EndsWord [f.shown]
          (fun g hg r hr => reads_after (reads_field (hf g (List.mem_cons_of_mem f hg)) hr))
          ends endsRun_nil rfl
      have hr : EndsWord (fs.flatMap (' ' :: ·.toText)) := by
        cases fs with
        | nil => exact endsRun_nil
        | cons g fs => exact ends g List.mem_cons_self _
      have ht : textForm (f :: fs) = f.toText ++ fs.flatMap (' ' :: ·.toText) := by
        rw [textForm, List.map_cons, intercalate_cons, List.flatMap_map]
      rw [List.append_nil] at hm
      refine read?_of_field ?_ hm
      rw [String.toList_ofList, ht]
      exact reads_field (hf f List.mem_cons_self) hr

/-! ### The fields of a record -/

theorem isWord_text (t : Instant) : IsWord t.text.toList := by
  obtain ⟨hc, hz⟩ := t.isTimeChar_of_mem_text
  refine ⟨?_, 'Z', hz, rfl⟩
  intro c h
  have hc := hc c h
  unfold Instant.isTimeChar at hc
  simp only [Bool.or_eq_true, decide_eq_true_eq] at hc
  rcases hc with (((((h | rfl) | rfl) | rfl) | rfl) | rfl) | rfl
  · exact isWordChar_of_isDigit h
  all_goals rfl

theorem isWord_name (k : PacketKind) : IsWord k.name.toList := by
  cases k
  all_goals exact ⟨List.all_eq_true.1 rfl, List.any_eq_true.1 rfl⟩

theorem isWord_label (d : Direction) : IsWord d.label.toList := by
  cases d
  all_goals exact ⟨List.all_eq_true.1 rfl, List.any_eq_true.1 rfl⟩

theorem readable_of_occurs {r : Record} {a : Atom} (h : a.Occurs r) : a.Readable := by
  cases h with
  | time => exact isWord_text r.time
  | kind => exact isWord_name r.kind
  | direction => exact isWord_label r.direction
  | _ => exact trivial

/-- **Every field of a line can be read.** -/
theorem readable_fields (verbose : Bool) (r : Record) : ∀ f ∈ fields verbose r, f.Readable := by
  intro f hf
  refine ⟨?_, fun a ha => readable_of_occurs (occurs_fields verbose r f hf a ha)⟩
  have hk := List.mem_map_of_mem (f := Field.key) hf
  rw [keys_fields] at hk
  exact not_mem_of_mem_keys f.key hk

/-- **The text of a line is read as what its fields show.** -/
theorem read?_lineText (verbose : Bool) (r : Record) :
    read? (r.lineText .text verbose) = some ((fields verbose r).map Field.shown) := by
  refine read?_textForm ?_ (readable_fields verbose r)
  simp [fields, commonFields]

end PacketLog.Line
