import PacketLog.Json
import PacketLog.Json.Reader
import PacketLog.Text.Quoted

/-!
# Proofs — Reading

Readers that take back what a notation has put down.

* `Text.many_flatMap`: values that are written one after the other are read one after the other.
* `Text.reads_quoted`: a quoted text is read back, whatever stands after it.
* `Json.reads_string`: and so is a string of the data format.
-/

namespace PacketLog.Text

/-- The reader takes a value from the front of the characters and leaves the rest. -/
def Reads {α : Type} (item : Reader α) (cs : List Char) (a : α) (rest : List Char) : Prop :=
  ∃ shorter, item cs = some (a, ⟨rest, shorter⟩)

section Runs

variable {p : Char → Bool} {cs rest : List Char}

/-- The text does not go on with a character of the class. -/
def EndsRun (p : Char → Bool) (rest : List Char) : Prop := ∀ c r, rest = c :: r → p c = false

theorem endsRun_nil : EndsRun p [] := by
  intro c r h
  cases h

theorem endsRun_cons {c : Char} {r : List Char} (h : p c = false) : EndsRun p (c :: r) := by
  intro d s hd
  cases hd
  exact h

theorem EndsRun.takeWhile (h : EndsRun p rest) (hc : ∀ c ∈ cs, p c = true) :
    (cs ++ rest).takeWhile p = cs := by
  rw [List.takeWhile_append_of_pos hc]
  cases rest with
  | nil => exact List.append_nil cs
  | cons c r => rw [List.takeWhile_cons_of_neg (by simp [h c r rfl]), List.append_nil]

theorem EndsRun.dropWhile (h : EndsRun p rest) (hc : ∀ c ∈ cs, p c = true) :
    (cs ++ rest).dropWhile p = rest := by
  rw [List.dropWhile_append_of_pos hc]
  cases rest with
  | nil => rfl
  | cons c r => rw [List.dropWhile_cons_of_neg (by simp [h c r rfl])]

end Runs

section Repeated

variable {α β : Type} {item : Reader α} {f : β → List Char} {g : β → α}

/-- **Values written one after the other are read one after the other**, provided that what stands
after each of them, `Ends`, cannot be taken for a part of it. -/
theorem many_flatMap (Ends : List Char → Prop) {bs : List β} {rest : List Char} (done : List α)
    (reads : ∀ b ∈ bs, ∀ r, Ends r → Reads item (f b ++ r) (g b) r)
    (ends : ∀ b ∈ bs, ∀ r, Ends (f b ++ r)) (hrest : Ends rest) (stops : item rest = none) :
    many item done (bs.flatMap f ++ rest) = (done.reverse ++ bs.map g, rest) := by
  induction bs generalizing done with
  | nil =>
      rw [List.flatMap_nil, List.nil_append, many, stops, List.map_nil, List.append_nil]
  | cons b bs ih =>
      have hr : Ends (bs.flatMap f ++ rest) := by
        cases bs with
        | nil => exact hrest
        | cons c bs =>
            rw [List.flatMap_cons, List.append_assoc]
            exact ends c (by simp) _
      obtain ⟨shorter, h⟩ := reads b (by simp) _ hr
      rw [List.flatMap_cons, List.append_assoc, many, h]
      have hn := ih (g b :: done) (fun c hc => reads c (by simp [hc]))
        fun c hc => ends c (by simp [hc])
      simpa using hn

end Repeated

/-- A text is read up to its closing quote. -/
theorem reads_closedBy {quote : Char} {char? : Reader Char} {f : Char → List Char}
    (reads : ∀ c r, Reads char? (f c ++ r) c r) (stops : ∀ r, char? (quote :: r) = none)
    (cs rest : List Char) :
    Reads (closedBy quote char?) (cs.flatMap f ++ quote :: rest) cs rest := by
  have hm : many char? [] (cs.flatMap f ++ quote :: rest) = (cs.map id, quote :: rest) :=
    many_flatMap (fun _ => True) [] (fun c _ r _ => reads c r) (fun _ _ _ => trivial) trivial
      (stops rest)
  rw [List.map_id] at hm
  refine ⟨?_, ?_⟩
  · have hl := length_many_le char? [] (cs.flatMap f ++ quote :: rest)
    rw [hm] at hl
    exact hl
  · unfold closedBy
    split
    · next h => rw [hm] at h; cases h
    · next h =>
        rw [hm] at h
        cases h
        rw [if_pos rfl]

/-! ### Hexadecimal digits -/

theorem hexValue?_digitChar {n : Nat} (h : n < 16) : hexValue? n.digitChar = some n := by
  revert n
  decide

theorem hexNumber?_concat {ds : List Char} {d : Char} {n v : Nat} (hn : hexNumber? ds = some n)
    (hv : hexValue? d = some v) : hexNumber? (ds ++ [d]) = some (16 * n + v) := by
  unfold hexNumber? at hn ⊢
  obtain ⟨vs, hvs, rfl⟩ := Option.map_eq_some_iff.1 hn
  simp [List.mapM_append, hvs, hv]

theorem hexNumber?_hexNumber (n : Nat) : hexNumber? (hexNumber n) = some n := by
  unfold hexNumber
  induction n using Nat.strongRecOn with
  | ind n ih =>
      rw [Nat.toDigits_eq_if (by omega)]
      by_cases h : n < 16
      · rw [if_pos h]
        simp [hexNumber?, hexValue?_digitChar h]
      · rw [if_neg h, hexNumber?_concat (ih (n / 16) (by omega))
          (hexValue?_digitChar (Nat.mod_lt n (by omega)))]
        congr 1
        omega

theorem hexValue?_hexDigit {n : Nat} (h : n < 16) : hexValue? (hexDigit n) = some n := by
  revert n
  decide

theorem hexNumber?_hexByte (b : UInt8) : hexNumber? (hexByte b) = some b.toNat := by
  have hb := b.toNat_lt
  have h₁ := hexValue?_hexDigit (show b.toNat / 16 < 16 by omega)
  have h₂ := hexValue?_hexDigit (show b.toNat % 16 < 16 by omega)
  simp [hexNumber?, hexByte, h₁, h₂]
  omega

/-- The digits of bytes determine the bytes. -/
theorem hexBytes_inj {bs ds : List UInt8} (h : hexBytes bs = hexBytes ds) : bs = ds := by
  induction bs generalizing ds with
  | nil =>
      cases ds with
      | nil => rfl
      | cons d ds => cases h
  | cons b bs ih =>
      cases ds with
      | nil => cases h
      | cons d ds =>
          rw [hexBytes_cons, hexBytes_cons] at h
          obtain ⟨hb, hs⟩ := List.append_inj h rfl
          have hn : some b.toNat = some d.toNat := by
            rw [← hexNumber?_hexByte, hb, hexNumber?_hexByte]
          rw [UInt8.toNat_inj.1 (Option.some.inj hn), ih hs]

/-- What holds of every digit holds of the digits of a number. -/
theorem forall_mem_hexNumber {p : Char → Prop} (hp : ∀ v < 16, p v.digitChar) (n : Nat) :
    ∀ c ∈ hexNumber n, p c := by
  unfold hexNumber
  induction n using Nat.strongRecOn with
  | ind n ih =>
      intro c hc
      rw [Nat.toDigits_eq_if (by omega)] at hc
      split at hc
      · next h =>
          obtain rfl := List.mem_singleton.1 hc
          exact hp n h
      · rcases List.mem_append.1 hc with hc | hc
        · exact ih (n / 16) (by omega) c hc
        · obtain rfl := List.mem_singleton.1 hc
          exact hp _ (Nat.mod_lt n (by omega))

theorem character?_toNat (c : Char) : Json.character? c.toNat = some c := by
  unfold Json.character?
  rw [dif_pos (show c.toNat.isValidChar from c.valid)]
  rfl

/-! ### Quoted texts -/

/-- What a letter after a backslash stands for. -/
def letter? : Char → Option Char
  | '"'  => some '"'
  | '\\' => some '\\'
  | 'n'  => some '\n'
  | 'r'  => some '\r'
  | 't'  => some '\t'
  | _    => none

/-- A code point in hexadecimal, up to its closing brace. -/
def codePoint? : Reader Char := fun cs =>
  match h : cs.dropWhile (· ≠ '\x7d') with
  | [] => none
  | _ :: r => do
    let n ← hexNumber? (cs.takeWhile (· ≠ '\x7d'))
    let c ← Json.character? n
    some (c, ⟨r, lt_of_dropWhile_eq h⟩)

/-- A character between the quotes. -/
def quotedChar? : Reader Char
  | '\\' :: 'u' :: '\x7b' :: r => (codePoint? r).map fun (c, left) => (c, left.cons.cons.cons)
  | '\\' :: c :: r => (letter? c).map (·, (Rest.tail r).cons)
  | c :: r => if c = '"' || c = '\\' then none else some (c, .tail r)
  | [] => none

/-- A quoted text after its opening quote. -/
def quoted? : Reader (List Char) := closedBy '"' quotedChar?

theorem reads_codePoint (c : Char) (r : List Char) :
    Reads codePoint? (hexNumber c.toNat ++ '\x7d' :: r) c r := by
  -- the digits end at the brace, which is none of them
  have hd : ∀ d ∈ hexNumber c.toNat, decide (d ≠ '\x7d') = true :=
    forall_mem_hexNumber (by decide) c.toNat
  have he : EndsRun (· ≠ '\x7d') ('\x7d' :: r) := endsRun_cons (by simp)
  have ht := he.takeWhile hd
  have hr := he.dropWhile hd
  unfold Reads codePoint?
  split
  · next h => rw [hr] at h; cases h
  · next h =>
      rw [hr] at h
      cases h
      refine ⟨lt_of_dropWhile_eq hr, ?_⟩
      simp only [ht, hexNumber?_hexNumber, character?_toNat, Option.bind_eq_bind, Option.bind_some]

/-- Only a backslash begins an escape. -/
theorem quotedChar?_plain {c : Char} (hq : c ≠ '"') (hb : c ≠ '\\') (r : List Char) :
    quotedChar? (c :: r) = some (c, .tail r) := by
  rw [quotedChar?, if_neg (by simp [hq, hb])]
  · exact fun _ h => absurd h hb
  · exact fun _ _ h => absurd h hb

theorem reads_escapeChar (c : Char) (r : List Char) :
    Reads quotedChar? (escapeChar c ++ r) c r := by
  unfold escapeChar
  split
  · next h => exact ⟨_, by rw [h]; rfl⟩
  split
  · next h => exact ⟨_, by rw [h]; rfl⟩
  split
  · next h => exact ⟨_, by rw [h]; rfl⟩
  split
  · next h => exact ⟨_, by rw [h]; rfl⟩
  split
  · next h => exact ⟨_, by rw [h]; rfl⟩
  split
  · obtain ⟨shorter, h⟩ := reads_codePoint c r
    simp only [List.append_assoc, List.cons_append, List.nil_append]
    exact ⟨_, by rw [quotedChar?, h]; rfl⟩
  · next hq hb _ _ _ _ => exact ⟨_, quotedChar?_plain hq hb r⟩

/-- **A quoted text is read back**, whatever stands after it. -/
theorem reads_quoted (cs rest : List Char) : Reads quoted? (escape cs ++ '"' :: rest) cs rest :=
  reads_closedBy reads_escapeChar (fun _ => rfl) cs rest

end PacketLog.Text

/-! ### Strings of the data format -/

namespace PacketLog.Json

open Text (Reads Rest reads_closedBy hexValue?_hexDigit)

/-- The four digits of a small code point. -/
theorem hexNumber?_small {n : Nat} (h : n < 256) :
    Text.hexNumber? ['0', '0', Text.hexDigit (n / 16), Text.hexDigit (n % 16)] = some n := by
  have h₁ := hexValue?_hexDigit (show n / 16 < 16 by omega)
  have h₂ := hexValue?_hexDigit (show n % 16 < 16 by omega)
  have h₀ : Text.hexValue? '0' = some 0 := rfl
  simp [Text.hexNumber?, h₀, h₁, h₂]
  omega

/-- Only a backslash begins an escape. -/
theorem char?_plain {c : Char} (hq : c ≠ '"') (hb : c ≠ '\\') (hs : ' ' ≤ c) (r : List Char) :
    char? (c :: r) = some (c, .tail r) := by
  rw [char?, if_pos (by simp [hq, hb, hs])]
  · exact fun _ _ _ _ _ h => absurd h hb
  · exact fun _ _ h => absurd h hb

theorem reads_escapeChar (c : Char) (r : List Char) : Reads char? (escapeChar c ++ r) c r := by
  unfold escapeChar
  split
  · next h => exact ⟨_, by rw [h]; rfl⟩
  split
  · next h => exact ⟨_, by rw [h]; rfl⟩
  split
  · next h => exact ⟨_, by rw [h]; rfl⟩
  split
  · next h => exact ⟨_, by rw [h]; rfl⟩
  split
  · next h => exact ⟨_, by rw [h]; rfl⟩
  split
  · next h => exact ⟨_, by rw [h]; rfl⟩
  split
  · next h => exact ⟨_, by rw [h]; rfl⟩
  split
  · next h =>
      refine ⟨(Rest.tail r).cons.cons.cons.cons.cons.2, ?_⟩
      simp only [List.cons_append, List.nil_append, char?,
        hexNumber?_small (show c.toNat < 256 by omega), Option.bind_eq_bind, Option.bind_some,
        Text.character?_toNat]
      rfl
  · next hq hb _ _ _ _ _ hs =>
      have h : ' ' ≤ c := by
        rw [Char.le_def, UInt32.le_iff_toNat_le]
        exact Nat.le_of_not_lt hs
      exact ⟨_, char?_plain hq hb h r⟩

/-- **A string is read back**, whatever stands after it. -/
theorem reads_string (s : String) (rest : List Char) :
    Reads string? (s.toList.flatMap escapeChar ++ '"' :: rest) s rest := by
  have stops : ∀ r, char? ('"' :: r) = none := fun _ => rfl
  obtain ⟨shorter, h⟩ := reads_closedBy reads_escapeChar stops s.toList rest
  refine ⟨shorter, ?_⟩
  simp only [string?, h, Option.map_some, String.ofList_toList]

end PacketLog.Json
