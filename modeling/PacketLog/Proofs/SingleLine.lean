import PacketLog.Proofs.Calendar
import PacketLog.Proofs.Layout
import PacketLog.Proofs.Reading
import PacketLog.Proofs.Serializing

/-!
# Proofs — SingleLine

Whatever a record says, its line is one line.

* `Line.plain_textForm`: a line that is text has no control character in it.
* `Json.unbroken_render`: nothing in the spelling of a value is below the blank.
* `Record.unbroken_lineText`: neither is anything in a line.
-/

namespace PacketLog

namespace Text

/-! ### Texts of some characters only -/

section Only

/-- Every character is one of these. -/
def Only (p : Char → Prop) (cs : List Char) : Prop := ∀ c ∈ cs, p c

/-- There is no control character. -/
abbrev Plain : List Char → Prop := Only (isControl · = false)

/-- There is nothing below the blank, in particular nothing that ends a line. -/
abbrev Unbroken : List Char → Prop := Only (0x20 ≤ ·.toNat)

variable {p : Char → Prop} {c : Char} {cs ds : List Char}

@[simp] theorem only_nil : Only p [] := nofun

@[simp] theorem only_cons : Only p (c :: cs) ↔ p c ∧ Only p cs := List.forall_mem_cons

@[simp] theorem only_append : Only p (cs ++ ds) ↔ Only p cs ∧ Only p ds := List.forall_mem_append

theorem only_flatMap {α : Type} {f : α → List Char} {as : List α} (h : ∀ a ∈ as, Only p (f a)) :
    Only p (as.flatMap f) := by
  intro c hc
  obtain ⟨a, ha, hc⟩ := List.mem_flatMap.1 hc
  exact h a ha c hc

theorem only_intercalate {sep : List Char} {css : List (List Char)} (hs : Only p sep)
    (h : ∀ cs ∈ css, Only p cs) : Only p (sep.intercalate css) := by
  induction css with
  | nil => exact only_nil
  | cons cs css ih =>
      obtain ⟨hcs, h⟩ := List.forall_mem_cons.1 h
      cases css with
      | nil => rwa [List.intercalate_singleton]
      | cons ds css =>
          rw [List.intercalate_cons_cons, only_append, only_append]
          exact ⟨⟨hcs, hs⟩, ih h⟩

theorem Plain.unbroken (h : Plain cs) : Unbroken cs := by
  intro c hc
  have hn := h c hc
  simp only [isControl, Bool.or_eq_false_iff, decide_eq_false_iff_not] at hn
  omega

end Only

/-! ### Numbers and quoted texts -/

section Plain

/-- A digit is no control character. -/
theorem isControl_of_isDigit {c : Char} (h : c.isDigit = true) : isControl c = false := by
  simp [Char.isDigit, isControl, UInt32.le_iff_toNat_le] at h ⊢
  omega

theorem plain_toDigits (n : Nat) : Plain (Nat.toDigits 10 n) :=
  fun _ hc => isControl_of_isDigit (Nat.isDigit_of_mem_toDigits (by decide) (by decide) hc)

theorem plain_hexByte (b : UInt8) : Plain (hexByte b) := by
  have digit (n : Nat) (h : n < 16) : isControl (hexDigit n) = false := by
    revert n
    decide
  have hb := b.toNat_lt
  simp only [hexByte, only_cons]
  exact ⟨digit _ (by omega), digit _ (Nat.mod_lt _ (by decide)), only_nil⟩

theorem plain_hexBytes (bs : List UInt8) : Plain (hexBytes bs) :=
  only_flatMap fun b _ => plain_hexByte b

/-- An escape has no control character in it, whatever it stands for. -/
theorem plain_escapeChar (c : Char) : Plain (escapeChar c) := by
  unfold escapeChar
  -- the five that have an escape of their own, the other control characters, and the rest
  repeat' split
  · simp +decide
  · simp +decide
  · simp +decide
  · simp +decide
  · simp +decide
  · have hex : Plain (hexNumber c.toNat) := forall_mem_hexNumber (by decide) c.toNat
    simpa +decide using hex
  · next h => simpa using h

theorem plain_quote (cs : List Char) : Plain (quote cs) := by
  have hq : isControl '"' = false := rfl
  simp only [quote, only_append, only_cons]
  exact ⟨⟨hq, only_flatMap fun c _ => plain_escapeChar c⟩, hq, only_nil⟩

end Plain

end Text

/-! ### Lines as text -/

namespace Line

open Text (Plain isControl)

section Plain

variable {r : Record}

theorem plain_markedHex (bs : List UInt8) : Plain (markedHex bs) := by
  simp +decide [markedHex, Text.plain_hexBytes]

theorem Atom.plain_toText {a : Atom} (h : a.Occurs r) : Plain a.toText := by
  cases h with
  | absent => simp +decide [toText, absentMark]
  | time =>
      intro c hc
      have ht := (Instant.isTimeChar_of_mem_text r.time).1 c hc
      simp only [Instant.isTimeChar, Bool.or_eq_true, decide_eq_true_eq] at ht
      rcases ht with (((((ht | rfl) | rfl) | rfl) | rfl) | rfl) | rfl
      · exact Text.isControl_of_isDigit ht
      all_goals rfl
  | kind =>
      rw [toText]
      cases r.kind <;> simp +decide [PacketKind.name]
  | direction =>
      rw [toText]
      cases r.direction <;> simp +decide [Direction.label]
  | text s => exact Text.plain_quote _
  | bytes bs truncated =>
      rw [toText]
      split
      · exact Text.plain_quote _
      · exact plain_markedHex bs
  | length | number => exact Text.plain_toDigits _
  | code c => simp +decide [toText, Text.plain_hexByte]
  | flag b => cases b <;> simp +decide [toText, flagWord]

theorem plain_bracketed {items : List (List Char)} (h : ∀ cs ∈ items, Plain cs) :
    Plain (bracketed items) := by
  have hi : Plain ([','].intercalate items) := Text.only_intercalate (by simp +decide) h
  simp +decide [bracketed, hi]

theorem Value.plain_toText {v : Value} (h : v.Occurs r) : Plain v.toText := by
  cases v with
  | atom a => exact Atom.plain_toText (Value.occurs_atom.1 h)
  | list as =>
      refine plain_bracketed fun cs hcs => ?_
      obtain ⟨a, ha, rfl⟩ := List.mem_map.1 hcs
      exact Atom.plain_toText (h a ha)
  | filters fs =>
      refine plain_bracketed fun cs hcs => ?_
      obtain ⟨⟨f, q⟩, -, rfl⟩ := List.mem_map.1 hcs
      have hq : Plain (Atom.ofOption (.number ·.code) q).toText :=
        Atom.plain_toText (r := r) (Atom.occurs_ofOption Atom.occurs_qos)
      simp +decide [Text.plain_quote, hq]
  | properties ps =>
      refine plain_bracketed fun cs hcs => ?_
      obtain ⟨⟨k, v⟩, -, rfl⟩ := List.mem_map.1 hcs
      simp +decide [Text.plain_quote]

theorem plain_of_mem_keys {verbose : Bool} : ∀ key ∈ keys verbose r, Plain key.toList := by
  unfold keys
  simp only [List.forall_mem_append]
  refine ⟨⟨by simp +decide [commonKeys], ?_⟩, by cases verbose <;> simp +decide [closingKeys]⟩
  cases r.details with
  | none => exact List.forall_mem_nil _
  | some d => cases d <;> cases verbose <;> simp +decide [detailKeys]

/-- **A line that is text has no control character in it.** -/
theorem plain_textForm (verbose : Bool) (r : Record) : Plain (textForm (fields verbose r)) := by
  refine Text.only_intercalate (by simp +decide) fun cs hcs => ?_
  obtain ⟨f, hf, rfl⟩ := List.mem_map.1 hcs
  have hkey : f.key ∈ keys verbose r := keys_fields verbose r ▸ List.mem_map_of_mem hf
  simp +decide [Field.toText, plain_of_mem_keys _ hkey,
    Value.plain_toText (occurs_fields verbose r f hf)]

end Plain

end Line

/-! ### Lines as JSON -/

namespace Json

open Text (Unbroken)

/-- An escape has nothing below the blank in it, whatever it stands for. -/
theorem unbroken_escapeChar (c : Char) : Unbroken (escapeChar c) := by
  have digit (n : Nat) (h : n < 16) : 0x20 ≤ (Text.hexDigit n).toNat := by
    revert n
    decide
  unfold escapeChar
  -- the seven that have an escape of their own, the others below the blank, and the rest
  repeat' split
  · simp
  · simp
  · simp
  · simp
  · simp
  · simp
  · simp
  · next h => simp [digit (c.toNat / 16) (by omega), digit (c.toNat % 16) (by omega)]
  · next h => simpa using h

theorem unbroken_quote (cs : List Char) : Unbroken (quote cs) := by
  have hcs : Unbroken (cs.flatMap escapeChar) :=
    Text.only_flatMap fun c _ => unbroken_escapeChar c
  simpa [quote] using hcs

mutual

/-- **Nothing in the spelling of a value is below the blank.** -/
theorem unbroken_render : ∀ v : Json, Unbroken v.render
  | .null           => by simp [render]
  | .flag true      => by simp [render]
  | .flag false     => by simp [render]
  | .number n       => by
      rw [render]
      exact (Text.plain_toDigits n).unbroken
  | .string cs      => by
      rw [render]
      exact unbroken_quote cs
  | .array items    => by simpa [render] using unbroken_renderItems items
  | .object members => by simpa [render] using unbroken_renderMembers members

theorem unbroken_renderItems : ∀ vs : List Json, Unbroken (renderItems vs)
  | []           => by simp [renderItems]
  | [v]          => by
      rw [renderItems]
      exact unbroken_render v
  | v :: w :: vs => by simp [renderItems, unbroken_render v, unbroken_renderItems (w :: vs)]

theorem unbroken_renderMembers : ∀ ms : List (String × Json), Unbroken (renderMembers ms)
  | []                => by simp [renderMembers]
  | [(k, v)]          => by simp [renderMembers, unbroken_quote, unbroken_render v]
  | (k, v) :: m :: ms => by
      simp [renderMembers, unbroken_quote, unbroken_render v, unbroken_renderMembers (m :: ms)]

end

end Json

/-! ### Lines -/

/-- **A line is one line**, whatever the record says and however it is written down. -/
theorem Record.unbroken_lineText (format : LineFormat) (verbose : Bool) (r : Record) :
    Text.Unbroken (r.lineText format verbose).toList := by
  cases format with
  | text =>
      rw [lineText, String.toList_ofList]
      exact (Line.plain_textForm verbose r).unbroken
  | json =>
      rw [lineText_json, String.toList_ofList]
      exact Json.unbroken_render _

/-- A line that is text has no control character in it. -/
theorem Record.plain_lineText (verbose : Bool) (r : Record) :
    Text.Plain (r.lineText .text verbose).toList := by
  unfold lineText
  rw [String.toList_ofList]
  exact Line.plain_textForm verbose r

end PacketLog
