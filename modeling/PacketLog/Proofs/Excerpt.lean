import PacketLog.Intake
import PacketLog.Proofs.Capture
import PacketLog.Proofs.Forms
import PacketLog.Proofs.SingleLine
import PacketLog.Proofs.Unicode

/-!
# Proofs — Excerpt

What a line shows of a payload.

* `Text.Utf8.decode_of_incomplete`: the beginning of a character is read as one, wherever it is cut.
* `Text.Utf8.decode_take`: of a text that is cut anywhere, the whole characters are read.
* `Line.excerpt_take`, `Line.excerpt_whole`: they are shown, and of bytes that are not cut those
  that are no text are shown in hexadecimal.
* `Record.showsPayload_line`: what is shown in the line of a record, and `ShowsPayload.string_eq`:
  that nothing else is.
* `Policy.payload_shown`: what the line of an event shows of its payload, in either format.
-/

namespace PacketLog.Text.Utf8

/-! ### Cut texts -/

section Cut

variable {limit : Nat} {c : Char} {cs ds : List Char} {t : List UInt8}

/-- Bytes that begin no character begin none either where there are more. -/
theorem decode_append_of_malformed (h : decode t = ([], .malformed)) (r : List UInt8) :
    decode (t ++ r) = ([], .malformed) := by
  revert h
  -- in all other cases something is read, or the bytes that are there can be continued
  fun_cases decode t with
  | case5 a h₁ h₂ b s hb =>
      intro _
      simp only [List.cons_append]
      rw [decode.eq_def]
      simp only [if_neg h₁, if_pos h₂, if_neg hb]
  | case11 a h₁ h₂ h₃ b hb c hc h₄ d s hd =>
      intro _
      simp only [List.cons_append]
      rw [decode.eq_def]
      simp only [if_neg h₁, if_neg h₂, if_pos h₃, if_pos hb, if_pos hc, if_neg h₄, if_neg hd]
  | case12 a h₁ h₂ h₃ b hb c s hc =>
      intro _
      simp only [List.cons_append]
      rw [decode.eq_def]
      simp only [if_neg h₁, if_neg h₂, if_pos h₃, if_pos hb, if_neg hc]
  | case13 a h₁ h₂ h₃ b s hb =>
      intro _
      simp only [List.cons_append]
      rw [decode.eq_def]
      simp only [if_neg h₁, if_neg h₂, if_pos h₃, if_neg hb]
  | case14 a s h₁ h₂ h₃ =>
      intro _
      simp only [List.cons_append]
      rw [decode.eq_def]
      simp only [if_neg h₁, if_neg h₂, if_neg h₃]
  | _ => rintro ⟨⟩

/-- The bytes of a character are those of no other with bytes after them. -/
theorem eq_nil_of_char {d : Char} {r : List UInt8}
    (h : String.utf8EncodeChar c = String.utf8EncodeChar d ++ r) : r = [] := by
  have hc := decode_char c []
  rw [h, List.append_nil, decode_char] at hc
  obtain rfl : d = c := (List.cons.inj (Prod.mk.inj hc).1).1
  exact List.append_cancel_left (by rw [List.append_nil]; exact h.symm)

/-- **The beginning of a character is read as one**, wherever it is cut. -/
theorem decode_of_incomplete (h : Incomplete t) : decode t = ([], .cut) := by
  obtain ⟨hne, c, rest, hrest, hc⟩ := h
  rcases decode_step t with ⟨d, left, rfl, -⟩ | ⟨rfl, -⟩ | ⟨-, hd⟩ | hd
  · -- another character would be read from the front of this one
    rw [List.append_assoc] at hc
    exact absurd (List.append_eq_nil_iff.1 (eq_nil_of_char hc)).2 hrest
  · exact absurd rfl hne
  · exact hd
  · have hm := decode_append_of_malformed hd rest
    have hr := decode_char c []
    rw [List.append_nil, hc, hm] at hr
    cases hr

/-- The longest beginning of a text that has no more bytes than the limit. -/
structure LongestFit (limit : Nat) (cs ds : List Char) : Prop where
  isPrefix  : ds <+: cs
  length_le : (bytesOf ds).length ≤ limit
  longest   : ∀ es, es <+: cs → (bytesOf es).length ≤ limit → es <+: ds

namespace LongestFit

/-- A text that has no more bytes fits as it is. -/
theorem whole (h : (bytesOf cs).length ≤ limit) : LongestFit limit cs cs :=
  ⟨List.prefix_rfl, h, fun _ hes _ => hes⟩

/-- Where the first character does not fit, nothing does. -/
theorem nil_of_lt (h : limit < (String.utf8EncodeChar c).length) :
    LongestFit limit (c :: cs) [] where
  isPrefix := List.nil_prefix
  length_le := Nat.zero_le limit
  longest := by
    intro es hes hl
    cases es with
    | nil => exact List.prefix_rfl
    | cons e es =>
        obtain rfl := (List.cons_prefix_cons.1 hes).1
        rw [bytesOf_cons, List.length_append] at hl
        omega

/-- Where the first character fits, the others have what it leaves of the limit. -/
theorem cons (h : (String.utf8EncodeChar c).length ≤ limit)
    (hds : LongestFit (limit - (String.utf8EncodeChar c).length) cs ds) :
    LongestFit limit (c :: cs) (c :: ds) where
  isPrefix := List.cons_prefix_cons.2 ⟨rfl, hds.isPrefix⟩
  length_le := by
    have hl := hds.length_le
    rw [bytesOf_cons, List.length_append]
    omega
  longest := by
    intro es hes hl
    cases es with
    | nil => exact List.nil_prefix
    | cons e es =>
        obtain ⟨rfl, hrest⟩ := List.cons_prefix_cons.1 hes
        rw [bytesOf_cons, List.length_append] at hl
        exact List.cons_prefix_cons.2 ⟨rfl, hds.longest es hrest (by omega)⟩

end LongestFit

/-- The bytes of a character, cut inside it, are not read as anything. -/
theorem decode_take_of_lt (h : limit < (String.utf8EncodeChar c).length) (r : List UInt8) :
    ∃ stop, decode ((String.utf8EncodeChar c ++ r).take limit) = ([], stop) ∧
      stop ≠ .malformed := by
  rw [List.take_append_of_le_length (Nat.le_of_lt h)]
  cases limit with
  | zero => exact ⟨.ended, rfl, nofun⟩
  | succ n =>
      refine ⟨.cut, decode_of_incomplete ⟨?_, c, _, ?_, (List.take_append_drop (n + 1) _).symm⟩,
        nofun⟩
      · exact List.ne_nil_of_length_pos (by rw [List.length_take]; omega)
      · exact List.ne_nil_of_length_pos (by rw [List.length_drop]; omega)

/-- **Of a text that is cut anywhere the whole characters are read**, and what is left of the one
that is cut is never taken for something else. -/
theorem decode_take (limit : Nat) (cs : List Char) :
    ∃ ds stop, decode ((bytesOf cs).take limit) = (ds, stop) ∧ LongestFit limit cs ds ∧
      stop ≠ .malformed := by
  induction cs generalizing limit with
  | nil => exact ⟨[], .ended, by rw [bytesOf, List.flatMap_nil, List.take_nil]; rfl,
      .whole (Nat.zero_le limit), nofun⟩
  | cons c cs ih =>
      rw [bytesOf_cons]
      by_cases h : (String.utf8EncodeChar c).length ≤ limit
      · obtain ⟨ds, stop, hd, hds, hs⟩ := ih (limit - (String.utf8EncodeChar c).length)
        refine ⟨c :: ds, stop, ?_, hds.cons h, hs⟩
        rw [List.take_append, List.take_of_length_le h, decode_char, hd]
      · obtain ⟨stop, hd, hs⟩ := decode_take_of_lt (Nat.lt_of_not_le h) (bytesOf cs)
        exact ⟨[], stop, hd, .nil_of_lt (Nat.lt_of_not_le h), hs⟩

/-- A text has no more characters than bytes. -/
theorem length_le_bytesOf (cs : List Char) : cs.length ≤ (bytesOf cs).length := by
  induction cs with
  | nil => exact Nat.le_refl 0
  | cons c cs ih =>
      have hc := List.length_pos_iff.2 (String.utf8EncodeChar_ne_nil (c := c))
      rw [bytesOf_cons, List.length_append, List.length_cons]
      omega

end Cut

end PacketLog.Text.Utf8

namespace PacketLog.Text

/-! ### Digits of bytes -/

/-- Two digits for each byte, which give its value. -/
inductive Spells : List Char → List UInt8 → Prop where
  | nil : Spells [] []
  | cons {high low : Char} {b : UInt8} {digits : List Char} {bs : List UInt8}
      (h : hexNumber? [high, low] = some b.toNat) (rest : Spells digits bs) :
      Spells (high :: low :: digits) (b :: bs)

theorem spells_hexBytes (bs : List UInt8) : Spells (hexBytes bs) bs := by
  induction bs with
  | nil => exact .nil
  | cons b bs ih =>
      rw [hexBytes_cons]
      exact .cons (hexNumber?_hexByte b) ih

theorem Spells.length_eq {digits : List Char} {bs : List UInt8} (h : Spells digits bs) :
    digits.length = 2 * bs.length := by
  induction h with
  | nil => rfl
  | cons _ _ ih =>
      simp only [List.length_cons]
      omega

end PacketLog.Text

namespace PacketLog.Line

open Text (Plain Spells)
open Text.Utf8 (bytesOf LongestFit decode_bytesOf decode_take decode?_eq_some_iff
  length_le_bytesOf)

/-! ### What is shown of bytes -/

/-- What is shown of bytes. -/
inductive Excerpt where
  | text (cs : List Char)
  /-- Digits, with a mark before them. -/
  | hex (digits : List Char)

namespace Excerpt

/-- What is shown of bytes, of which some may have been cut off at the end. -/
def ofBytes (bs : List UInt8) (truncated : Bool) : Excerpt :=
  match shownText? bs truncated with
  | some cs => .text cs
  | none    => .hex (Text.hexBytes bs)

/-- The characters of digits with their mark. -/
def marked (digits : List Char) : List Char := ['h', 'e', 'x', ':'] ++ digits

/-- How it stands in a line that is text: a text in quotes, digits as a word. -/
def token : Excerpt → Token
  | .text cs    => .quoted cs
  | .hex digits => .word (marked digits)

/-- The string that stands for it in the data format. -/
def string : Excerpt → String
  | .text cs    => String.ofList cs
  | .hex digits => String.ofList (marked digits)

theorem token_inj {x y : Excerpt} (h : x.token = y.token) : x = y := by
  cases x with
  | text cs => cases y <;> simp_all [token]
  | hex digits => cases y <;> simp_all [token, marked]

theorem token_ofBytes (bs : List UInt8) (truncated : Bool) :
    (ofBytes bs truncated).token = (Atom.bytes bs truncated).shown := by
  unfold ofBytes
  cases h : shownText? bs truncated with
  | some cs => simp only [Atom.shown, h, token]
  | none =>
      simp only [Atom.shown, h]
      rfl

theorem toDatum_token (x : Excerpt) : x.token.toDatum = .text x.string := by
  cases x <;> rfl

end Excerpt

section Bytes

variable {bs : List UInt8} {cs : List Char} {limit : Nat}

/-- Where nothing has been cut off, bytes are shown as a text if they are those of one without
control characters, and only then. -/
theorem shownText?_false_eq_some_iff :
    shownText? bs false = some cs ↔ bs = bytesOf cs ∧ Plain cs := by
  have h : shownText? bs false =
      (Text.Utf8.decode? bs).filter fun cs => !cs.any Text.isControl := by
    unfold shownText? Text.Utf8.decode?
    rcases Text.Utf8.decode bs with ⟨ds, _ | _ | _⟩ <;> rfl
  rw [h, Option.filter_eq_some_iff, decode?_eq_some_iff]
  simp [Plain, Text.Only]

/-- Where the bytes have been cut off, the characters that are left whole are shown. -/
theorem shownText?_true {stop : Text.Utf8.Stop} (h : Text.Utf8.decode bs = (cs, stop))
    (hs : stop ≠ .malformed) (hc : Plain cs) : shownText? bs true = some cs := by
  have hany : cs.any Text.isControl = false := by simpa [Plain, Text.Only] using hc
  unfold shownText?
  rw [h]
  cases stop with
  | ended => simp [Option.filter, hany]
  | cut => simp [Option.filter, hany]
  | malformed => exact absurd rfl hs

/-- The bytes of a text without control characters are shown as it. -/
theorem excerpt_bytesOf (hc : Plain cs) : Excerpt.ofBytes (bytesOf cs) false = .text cs := by
  unfold Excerpt.ofBytes
  rw [shownText?_false_eq_some_iff.2 ⟨rfl, hc⟩]

/-- **Of a text that is cut its longest fitting beginning is shown**, as a text. -/
theorem excerpt_take (hc : Plain cs) (limit : Nat) : ∃ ds, LongestFit limit cs ds ∧
    Excerpt.ofBytes ((bytesOf cs).take limit) (decide (limit < (bytesOf cs).length)) =
      .text ds := by
  by_cases h : limit < (bytesOf cs).length
  · obtain ⟨ds, stop, hd, hds, hs⟩ := decode_take limit cs
    have hplain : Plain ds := fun c hm => hc c (hds.isPrefix.mem hm)
    refine ⟨ds, hds, ?_⟩
    rw [decide_eq_true h, Excerpt.ofBytes, shownText?_true hd hs hplain]
  · have hle : (bytesOf cs).length ≤ limit := Nat.le_of_not_lt h
    rw [decide_eq_false h, List.take_of_length_le hle]
    exact ⟨cs, .whole hle, excerpt_bytesOf hc⟩

/-- **Bytes that are not cut are shown in hexadecimal** if they are not those of a text without
control characters. -/
theorem excerpt_whole (h : ¬∃ cs, bs = bytesOf cs ∧ Plain cs) :
    Excerpt.ofBytes bs false = .hex (Text.hexBytes bs) := by
  unfold Excerpt.ofBytes
  cases hs : shownText? bs false with
  | none => rfl
  | some cs => exact absurd ⟨cs, shownText?_false_eq_some_iff.1 hs⟩ h

/-- The string that stands for a text is too short for the digits of its bytes. -/
theorem string_ne_of_spells {digits : List Char} (h : Spells digits (bytesOf cs)) :
    (Excerpt.hex digits).string ≠ (Excerpt.text cs).string := by
  intro heq
  have hl := congrArg List.length (String.ofList_injective heq)
  have hd := h.length_eq
  have hc := length_le_bytesOf cs
  simp only [Excerpt.marked, List.length_append] at hl
  simp at hl
  omega

end Bytes

/-! ### What is shown in a line -/

theorem lookup_payload (verbose : Bool) (r : Record) :
    ((fields verbose r).map Field.shown).lookup "payload" =
      some (.token (Atom.ofOption (.bytes · r.truncated) r.payload).shown) := rfl

theorem lookup_payload_toDatum (verbose : Bool) (r : Record) :
    ((fields verbose r).map fun f => (f.key, f.value.shown.toDatum)).lookup "payload" =
      some (Atom.ofOption (.bytes · r.truncated) r.payload).shown.toDatum := rfl

end PacketLog.Line

namespace PacketLog

open Line (Excerpt)
open Text (Plain Spells)
open Text.Utf8 (bytesOf LongestFit)

/-- What is read from the line, in this format, in the place of the payload. -/
def LogLine.ShowsPayload (l : LogLine) (x : Excerpt) : LineFormat → Prop
  | .text => ∃ said, Line.read? l.text = some said ∧
      said.lookup "payload" = some (.token x.token)
  | .json => ∃ ms, Json.membersOf? l.text = some ms ∧ ms.lookup "payload" = some (.text x.string)

/-- In neither format two things are shown that have different characters. -/
theorem LogLine.ShowsPayload.string_eq {l : LogLine} {format : LineFormat} {x y : Excerpt}
    (hx : l.ShowsPayload x format) (hy : l.ShowsPayload y format) : x.string = y.string := by
  cases format with
  | text =>
      obtain ⟨said, hread, hx⟩ := hx
      obtain ⟨said', hread', hy⟩ := hy
      obtain rfl := Option.some.inj (hread.symm.trans hread')
      have ht := Option.some.inj (hx.symm.trans hy)
      exact congrArg _ (Excerpt.token_inj (Line.Shown.token.inj ht))
  | json =>
      obtain ⟨ms, hread, hx⟩ := hx
      obtain ⟨ms', hread', hy⟩ := hy
      obtain rfl := Option.some.inj (hread.symm.trans hread')
      exact Datum.text.inj (Option.some.inj (hx.symm.trans hy))

/-- **The line of a record shows its sample.** -/
theorem Record.showsPayload_line {r : Record} {bs : List UInt8} (hp : r.payload = some bs)
    (hr : r.payloadLength < UInt64.size) (format : LineFormat) (verbose : Bool) :
    (r.line format verbose).ShowsPayload (.ofBytes bs r.truncated) format := by
  cases format with
  | text =>
      refine ⟨_, Line.read?_lineText verbose r, ?_⟩
      rw [Line.lookup_payload, hp, Excerpt.token_ofBytes]
      rfl
  | json =>
      refine ⟨_, Line.membersOf?_lineText hr verbose, ?_⟩
      rw [Line.lookup_payload_toDatum, hp, ← Excerpt.toDatum_token, Excerpt.token_ofBytes]
      rfl

namespace Policy

/-- What the line of an event shows of its payload. -/
theorem showsPayload_of_lineOf {p : Policy} {e : Event} {bs : List UInt8} {line : LogLine}
    (hbs : e.payload = some bs) (hlen : bs.length < UInt64.size) (hp : p.hidesPayload = false)
    (h : p.lineOf e.record = some line) :
    line.ShowsPayload
      (.ofBytes (bs.take p.sampleLimit) (decide (p.sampleLimit < bs.length))) p.format := by
  obtain ⟨k, hk, rfl⟩ := Option.map_eq_some_iff.1 h
  obtain ⟨hsample, hflag⟩ := sample_of_keep? hk hp
  have hlength := payloadLength_of_keep? hk
  rw [Event.payloadLength, hbs, Option.map_some, Option.getD_some] at hlength
  rw [hbs, Option.map_some] at hsample hflag
  rw [Option.getD_some] at hflag
  rw [← hflag]
  exact Record.showsPayload_line hsample (hlength ▸ hlen) p.format p.verbose

/-- **Of a payload that is a text the longest beginning is shown that fits**, as a text, wherever it
is cut.  Of a payload that is not cut the bytes are shown in hexadecimal exactly if they are not
those of a text without control characters.  No payload has 2⁶⁴ bytes. -/
theorem payload_shown (version : UInt64) (s : Config.PolicySettings) (e : Event)
    (bs : List UInt8) (line : LogLine) (hbs : e.payload = some bs)
    (hlen : bs.length < UInt64.size) (hshown : s.payload.shown = true)
    (hkept : s.redacts .payload = false)
    (h : (ofSettings version s).lineOf e.record = some line) :
    (∀ cs, bs = bytesOf cs → Plain cs →
      ∃ ds, LongestFit (min s.payload.maxBytes captureLimit) cs ds ∧
        line.ShowsPayload (.text ds) s.format) ∧
    (bs.length ≤ min s.payload.maxBytes captureLimit →
      ((∃ digits, Spells digits bs ∧ line.ShowsPayload (.hex digits) s.format) ↔
        ¬∃ cs, bs = bytesOf cs ∧ Plain cs)) := by
  have hp : (ofSettings version s).hidesPayload = false :=
    hidesPayload_eq_false_iff.2 ⟨hshown, hkept⟩
  have hline := showsPayload_of_lineOf hbs hlen hp h
  rw [sampleLimit_ofSettings] at hline
  refine ⟨?_, fun hle => ?_⟩
  · rintro cs rfl hc
    obtain ⟨ds, hds, hx⟩ := Line.excerpt_take hc (min s.payload.maxBytes captureLimit)
    exact ⟨ds, hds, hx ▸ hline⟩
  · rw [List.take_of_length_le hle, decide_eq_false (Nat.not_lt.2 hle)] at hline
    constructor
    · rintro ⟨digits, hd, hx⟩ ⟨cs, rfl, hc⟩
      rw [Line.excerpt_bytesOf hc] at hline
      exact Line.string_ne_of_spells hd (hx.string_eq hline)
    · intro hn
      rw [Line.excerpt_whole hn] at hline
      exact ⟨_, Text.spells_hexBytes bs, hline⟩

/-- A character of three bytes that is cut after two of them, and a byte that is not cut but has a
second one missing. -/
theorem payload_shown_cut :
    (∃ line, (ofSettings 1 { format := .json, payload := { maxBytes := 2 } }).lineOf
        (Event.publishing (bytesOf ['€'])).record = some line ∧
      line.ShowsPayload (.text []) .json) ∧
    ∃ line, (ofSettings 1 {}).lineOf (Event.publishing [0xC2]).record = some line ∧
      ∃ digits, Spells digits [0xC2] ∧ line.ShowsPayload (.hex digits) .text := by
  refine ⟨⟨_, rfl, ?_⟩, _, rfl, ?_⟩
  · have hplain : Plain ['€'] := Text.only_cons.2 ⟨rfl, Text.only_nil⟩
    obtain ⟨ds, hds, hline⟩ := (payload_shown 1 { format := .json, payload := { maxBytes := 2 } }
      (Event.publishing (bytesOf ['€'])) _ _ rfl (by decide) rfl rfl rfl).1 ['€'] rfl hplain
    rcases List.prefix_cons_iff.1 hds.isPrefix with rfl | ⟨es, rfl, -⟩
    · exact hline
    · -- the whole character has three bytes
      have hl := hds.length_le
      have hc : (String.utf8EncodeChar '€').length = 3 := rfl
      have hm : min 2 captureLimit = 2 := rfl
      rw [Text.Utf8.bytesOf_cons, List.length_append, hc, hm] at hl
      omega
  · refine ((payload_shown 1 {} (Event.publishing [0xC2]) [0xC2] _ rfl (by decide) rfl rfl rfl).2
      (by decide)).2 ?_
    rintro ⟨cs, hcs, -⟩
    have hd := Text.Utf8.decode_bytesOf cs
    rw [← hcs] at hd
    cases hd

end Policy

end PacketLog
