import PacketLog.Line
import PacketLog.Proofs.Reading

/-!
# Proofs — Tokens

The values of a line that have no parts, as someone reads them who does not know what the record
was.  A word is taken for what it looks like: the hyphen is what is absent, digits are a number.

* `Line.reads_word`, `Line.reads_quote`: a word is read up to its end and taken for what it looks
  like, a quoted text is read whatever stands after it.
* `Line.ofWord_of_isTelling`: a word with a letter that no number has stands for itself.
* `Line.reads_atom`: a value without parts is read as what it shows.
-/

namespace PacketLog.Line

open Text (Reader Rest Reads EndsRun)

/-! ### What is seen of a value without parts -/

/-- What stands in the place of a value without parts. -/
inductive Token where
  | absent
  | flag (b : Bool)
  | number (n : Nat)
  /-- A number in hexadecimal, marked as such. -/
  | code (n : Nat)
  /-- Any other word. -/
  | word (cs : List Char)
  | quoted (cs : List Char)
deriving DecidableEq

/-- What is seen of a value without parts. -/
def Atom.shown : Atom → Token
  | .absent             => .absent
  | .word s             => .word s.toList
  | .text s             => .quoted s.toList
  | .bytes bs truncated =>
    match shownText? bs truncated with
    | some cs => .quoted cs
    | none    => .word (markedHex bs)
  | .number n           => .number n
  | .code c             => .code c.toNat
  | .flag b             => .flag b

/-! ### Reading a word or a quoted text -/

/-- A character that stands in a word. -/
def isWordChar (c : Char) : Bool :=
  !(c = ' ' || c = '"' || c = ',' || c = '=' || c = '[' || c = ']')

/-- What a word looks like. -/
def Token.ofWord (cs : List Char) : Token :=
  if cs = absentMark then .absent
  else if cs = flagWord true then .flag true
  else if cs = flagWord false then .flag false
  else if cs.all Char.isDigit then .number (Nat.ofDigitChars 10 cs 0)
  else match cs with
    | '0' :: 'x' :: ds => ((Text.hexNumber? ds).map Token.code).getD (.word cs)
    | _                => .word cs

/-- A quoted text or a word. -/
def token? : Reader Token
  | [] => none
  | c :: r =>
    if c = '"' then (Text.quoted? r).map fun (cs, left) => (.quoted cs, left.cons)
    else if isWordChar c then
      some (.ofWord (c :: r.takeWhile isWordChar), .dropWhile isWordChar r)
    else none

/-! ### Words -/

section Words

variable {cs rest : List Char}

/-- What stands after a word cannot be taken for a part of it. -/
abbrev EndsWord : List Char → Prop := EndsRun isWordChar

/-- A word is read up to its end, and taken for what it looks like. -/
theorem reads_word (hn : cs ≠ []) (hw : ∀ c ∈ cs, isWordChar c = true) (hr : EndsWord rest) :
    Reads token? (cs ++ rest) (.ofWord cs) rest := by
  cases cs with
  | nil => exact absurd rfl hn
  | cons c cs =>
      have hc : isWordChar c = true := hw c List.mem_cons_self
      have hs : ∀ d ∈ cs, isWordChar d = true := fun d hd => hw d (List.mem_cons_of_mem c hd)
      have hq : c ≠ '"' := by
        rintro rfl
        cases hc
      have hl : rest.length < (c :: cs ++ rest).length := by
        simp only [List.length_append, List.length_cons]
        omega
      refine ⟨hl, ?_⟩
      simp only [List.cons_append, token?, if_neg hq, if_pos hc, hr.takeWhile hs,
        Rest.dropWhile, hr.dropWhile hs]

/-- A quoted text is read whatever stands after it. -/
theorem reads_quote (cs rest : List Char) :
    Reads token? (Text.quote cs ++ rest) (.quoted cs) rest := by
  obtain ⟨shorter, h⟩ := Text.reads_quoted cs rest
  have hq : Text.quote cs ++ rest = '"' :: (Text.escape cs ++ '"' :: rest) := by
    simp [Text.quote]
  rw [hq]
  exact ⟨(Rest.cons ⟨rest, shorter⟩).2, by rw [token?, if_pos rfl, h]; rfl⟩

/-- A character that neither a number nor one of the set words has. -/
def isTelling (c : Char) : Bool :=
  (Text.hexValue? c).isNone && !(['-', 't', 'r', 'u', 'l', 's', 'x'].contains c)

theorem hexValue?_of_isDigit {c : Char} (h : c.isDigit = true) :
    Text.hexValue? c = some (c.toNat - 48) := by
  unfold Text.hexValue?
  rw [if_pos]
  simpa [Char.isDigit, Char.le_def] using h

/-- Where one of the characters is no digit, there is no number. -/
theorem hexNumber?_eq_none {ds : List Char} {c : Char} (h : c ∈ ds)
    (hc : Text.hexValue? c = none) : Text.hexNumber? ds = none := by
  unfold Text.hexNumber?
  rw [Option.map_eq_none_iff]
  induction ds with
  | nil => cases h
  | cons d ds ih =>
      rw [List.mapM_cons]
      rcases List.mem_cons.1 h with rfl | h
      · rw [hc]
        rfl
      · cases Text.hexValue? d with
        | none => rfl
        | some v => simp [ih h]

theorem not_isTelling_of_mem_flagWord {b : Bool} :
    ∀ c ∈ flagWord b, isTelling c = false := by
  have h : (flagWord b).all (fun c => !isTelling c) = true := by
    cases b with
    | true => rfl
    | false => rfl
  intro c hc
  simpa using List.all_eq_true.1 h c hc

/-- A word with such a character stands for itself. -/
theorem ofWord_of_isTelling {c : Char} (h : c ∈ cs) (hc : isTelling c = true) :
    Token.ofWord cs = .word cs := by
  obtain ⟨hv, hs⟩ := (Bool.and_eq_true _ _).mp hc
  rw [Option.isNone_iff_eq_none] at hv
  have ha : cs ≠ absentMark := by
    rintro rfl
    obtain rfl := List.mem_singleton.1 h
    cases hs
  have hf (b : Bool) : cs ≠ flagWord b := by
    rintro rfl
    rw [not_isTelling_of_mem_flagWord c h] at hc
    cases hc
  have hd : ¬cs.all Char.isDigit = true := by
    intro hd
    rw [hexValue?_of_isDigit (List.all_eq_true.1 hd c h)] at hv
    cases hv
  unfold Token.ofWord
  rw [if_neg ha, if_neg (hf true), if_neg (hf false), if_neg hd]
  split
  · next ds =>
      have hm : c ∈ ds := by
        rcases List.mem_cons.1 h with rfl | h
        · cases hv
        · rcases List.mem_cons.1 h with rfl | h
          · cases hs
          · exact h
      rw [hexNumber?_eq_none hm hv]
      rfl
  · rfl

/-- Digits are a number. -/
theorem ofWord_toDigits (n : Nat) : Token.ofWord (Nat.toDigits 10 n) = .number n := by
  have hd : (Nat.toDigits 10 n).all Char.isDigit = true :=
    List.all_eq_true.2 fun c hc => Nat.isDigit_of_mem_toDigits (by decide) (by decide) hc
  have ha : Nat.toDigits 10 n ≠ absentMark := by
    intro h
    rw [h] at hd
    cases hd
  have hf (b : Bool) : Nat.toDigits 10 n ≠ flagWord b := by
    intro h
    rw [h] at hd
    cases b with
    | true => cases hd
    | false => cases hd
  unfold Token.ofWord
  rw [if_neg ha, if_neg (hf true), if_neg (hf false), if_pos hd, Nat.ofDigitChars_ten_toDigits]

/-- A byte in hexadecimal is a code. -/
theorem ofWord_hexByte (c : UInt8) :
    Token.ofWord ('0' :: 'x' :: Text.hexByte c) = .code c.toNat := by
  have ha : '0' :: 'x' :: Text.hexByte c ≠ absentMark := by
    intro h
    cases h
  have hf (b : Bool) : '0' :: 'x' :: Text.hexByte c ≠ flagWord b := by
    intro h
    cases b with
    | true => cases h
    | false => cases h
  have hd : ¬('0' :: 'x' :: Text.hexByte c).all Char.isDigit = true := by
    intro h
    cases h
  unfold Token.ofWord
  rw [if_neg ha, if_neg (hf true), if_neg (hf false), if_neg hd]
  simp only [Text.hexNumber?_hexByte, Option.map_some, Option.getD_some]

end Words

/-! ### Values without parts -/

/-- A word that says what it is, and is in one piece. -/
structure IsWord (cs : List Char) : Prop where
  whole  : ∀ c ∈ cs, isWordChar c = true
  telling : ∃ c ∈ cs, isTelling c = true

theorem isWordChar_of_isDigit {c : Char} (h : c.isDigit = true) : isWordChar c = true := by
  unfold isWordChar
  rw [Bool.not_eq_true', Bool.eq_false_iff]
  intro hn
  simp only [Bool.or_eq_true, decide_eq_true_eq] at hn
  rcases hn with ((((rfl | rfl) | rfl) | rfl) | rfl) | rfl
  all_goals cases h

theorem isWordChar_of_mem_hexByte {b : UInt8} : ∀ c ∈ Text.hexByte b, isWordChar c = true := by
  have digit (n : Nat) (h : n < 16) : isWordChar (Text.hexDigit n) = true := by
    revert n
    decide
  have hb := b.toNat_lt
  simp only [Text.hexByte, List.forall_mem_cons]
  exact ⟨digit _ (by omega), digit _ (Nat.mod_lt _ (by decide)), List.forall_mem_nil _⟩

theorem isWord_markedHex (bs : List UInt8) : IsWord (markedHex bs) := by
  refine ⟨?_, 'h', by simp [markedHex], rfl⟩
  unfold markedHex Text.hexBytes
  rw [List.forall_mem_append]
  refine ⟨List.all_eq_true.1 rfl, ?_⟩
  intro c hc
  obtain ⟨b, -, hc⟩ := List.mem_flatMap.1 hc
  exact isWordChar_of_mem_hexByte c hc

/-- The value has no word that could be taken for something else. -/
def Atom.Readable : Atom → Prop
  | .word s => IsWord s.toList
  | _       => True

section Values

variable {rest : List Char}

theorem IsWord.reads {cs : List Char} (h : IsWord cs) (hr : EndsWord rest) :
    Reads token? (cs ++ rest) (.word cs) rest := by
  obtain ⟨hw, c, hc, ht⟩ := h
  rw [← ofWord_of_isTelling hc ht]
  exact reads_word (List.ne_nil_of_mem hc) hw hr

/-- **A value without parts is read as what it shows.** -/
theorem reads_atom {a : Atom} (ha : a.Readable) (hr : EndsWord rest) :
    Reads token? (a.toText ++ rest) a.shown rest := by
  cases a with
  | absent => exact reads_word (show absentMark ≠ [] by decide) (List.all_eq_true.1 rfl) hr
  | word s => exact IsWord.reads ha hr
  | text s => exact reads_quote s.toList rest
  | bytes bs truncated =>
      cases h : shownText? bs truncated with
      | some cs =>
          simp only [Atom.toText, Atom.shown, h]
          exact reads_quote cs rest
      | none =>
          simp only [Atom.toText, Atom.shown, h]
          exact (isWord_markedHex bs).reads hr
  | number n =>
      have hd : ∀ c ∈ Nat.toDigits 10 n, isWordChar c = true := fun c hc =>
        isWordChar_of_isDigit (Nat.isDigit_of_mem_toDigits (by decide) (by decide) hc)
      have h := reads_word Nat.toDigits_ne_nil hd hr
      rwa [ofWord_toDigits] at h
  | code c =>
      have hw : ∀ d ∈ '0' :: 'x' :: Text.hexByte c, isWordChar d = true := by
        simp only [List.forall_mem_cons]
        exact ⟨rfl, rfl, isWordChar_of_mem_hexByte⟩
      have h := reads_word (by simp) hw hr
      rwa [ofWord_hexByte] at h
  | flag b =>
      cases b with
      | true => exact reads_word (show flagWord true ≠ [] by decide) (List.all_eq_true.1 rfl) hr
      | false => exact reads_word (show flagWord false ≠ [] by decide) (List.all_eq_true.1 rfl) hr

end Values

end PacketLog.Line
