import PacketLog.Proofs.Excerpt
import PacketLog.Proofs.Lossless

/-!
# Proofs — Correlation

What a line tells of the data that correlate a message with a request, which are bytes.  In a line
that is text, a text stands in quotes and digits do not, so both are told apart.  In the data format
both are strings, and a text that begins as digits do is taken for digits.

* `Line.Excerpt.string_eq_iff`: which bytes have the same string stand for them.
* `Record.correlation_told`: which data have the same line, in either format.
* `Record.correlation_mistaken`: there are such data.
-/

namespace PacketLog

open Text (Plain)
open Text.Utf8 (bytesOf)

namespace Line

/-! ### Strings that stand for bytes -/

/-- The bytes are those of a text without control characters. -/
def Textual (bs : List UInt8) : Prop := ∃ cs, bs = bytesOf cs ∧ Plain cs

/-- The first bytes are a text, namely that which shows the others in hexadecimal. -/
def Mimics (bs ds : List UInt8) : Prop := ¬Textual ds ∧ bs = bytesOf (markedHex ds)

namespace Excerpt

variable {bs ds : List UInt8}

/-- What shows bytes in hexadecimal is a text itself. -/
theorem string_eq_of_mimics (h : Mimics bs ds) :
    (ofBytes bs false).string = (ofBytes ds false).string := by
  obtain ⟨hds, rfl⟩ := h
  rw [excerpt_bytesOf (plain_markedHex ds), excerpt_whole hds]
  rfl

theorem eq_or_mimics_of_string_eq
    (h : (ofBytes bs false).string = (ofBytes ds false).string) :
    bs = ds ∨ Mimics bs ds ∨ Mimics ds bs := by
  by_cases hb : Textual bs
  · obtain ⟨cs, rfl, hcs⟩ := hb
    rw [excerpt_bytesOf hcs] at h
    by_cases hd : Textual ds
    · obtain ⟨es, rfl, hes⟩ := hd
      rw [excerpt_bytesOf hes] at h
      exact .inl (congrArg bytesOf (String.ofList_injective h))
    · rw [excerpt_whole hd] at h
      exact .inr (.inl ⟨hd, congrArg bytesOf (String.ofList_injective h)⟩)
  · rw [excerpt_whole hb] at h
    by_cases hd : Textual ds
    · obtain ⟨es, rfl, hes⟩ := hd
      rw [excerpt_bytesOf hes] at h
      exact .inr (.inr ⟨hb, congrArg bytesOf (String.ofList_injective h.symm)⟩)
    · rw [excerpt_whole hd] at h
      exact .inl (Text.hexBytes_inj (List.append_cancel_left (String.ofList_injective h)))

/-- **One string stands for different bytes** only where one is a text that shows the other in
hexadecimal. -/
theorem string_eq_iff : (ofBytes bs false).string = (ofBytes ds false).string ↔
    bs = ds ∨ Mimics bs ds ∨ Mimics ds bs := by
  refine ⟨eq_or_mimics_of_string_eq, ?_⟩
  rintro (rfl | h | h)
  · rfl
  · exact string_eq_of_mimics h
  · exact (string_eq_of_mimics h).symm

theorem toJson_bytes (bs : List UInt8) (truncated : Bool) :
    (Atom.bytes bs truncated).toJson = .string (ofBytes bs truncated).string.toList := by
  rw [Atom.toJson, ofBytes]
  cases shownText? bs truncated with
  | some cs => rw [Option.getD_some, string, String.toList_ofList]
  | none =>
      rw [Option.getD_none, string, String.toList_ofList]
      rfl

end Excerpt

end Line

/-! ### Lines -/

open Line (Excerpt Mimics)

namespace Record

variable {r : Record} {d : PublishDetails} {bs ds : List UInt8}

/-- The record of a message with these details, and these data to correlate it with a request. -/
def correlated (r : Record) (d : PublishDetails) (bs : List UInt8) : Record :=
  { r with details := some (.publish { d with correlationData := some bs }) }

theorem lookup_correlated (r : Record) (d : PublishDetails) (bs : List UInt8) :
    ((Line.fields true (r.correlated d bs)).map Line.Field.shown).lookup "correlation_data" =
      some (.token (Excerpt.ofBytes bs false).token) := by
  rw [Excerpt.token_ofBytes]
  rfl

theorem lookup_correlated_toDatum (r : Record) (d : PublishDetails) (bs : List UInt8) :
    ((Line.fields true (r.correlated d bs)).map fun f => (f.key, f.value.shown.toDatum)).lookup
      "correlation_data" = some (.text (Excerpt.ofBytes bs false).string) := by
  rw [← Excerpt.toDatum_token, Excerpt.token_ofBytes]
  rfl

/-- A line in the data format is made from the string alone. -/
theorem lineText_json_correlated
    (h : (Excerpt.ofBytes bs false).string = (Excerpt.ofBytes ds false).string) :
    (r.correlated d bs).lineText .json true = (r.correlated d ds).lineText .json true := by
  have hj : (Line.Atom.bytes bs false).toJson = (Line.Atom.bytes ds false).toJson := by
    rw [Excerpt.toJson_bytes, Excerpt.toJson_bytes, h]
  rw [lineText_json, lineText_json]
  simp [Line.jsonForm, Line.Field.member, Line.fields_eq, correlated, Line.commonFields,
    Line.detailFields, Line.detailsOf, Line.publishDetails, Line.closingFields, Line.Field.atom,
    Line.Value.toJson, Line.Atom.ofOption, hj, reasonCode]

/-- **Which data to correlate a message with a request have the same line.**  In a line that is text
only equal ones have.  In the data format, so have bytes that are no text and the text that shows
them in hexadecimal, and no others. -/
theorem correlation_told (r : Record) (d : PublishDetails) (bs ds : List UInt8)
    (hr : r.payloadLength < UInt64.size) :
    ((r.correlated d bs).lineText .text true = (r.correlated d ds).lineText .text true ↔
      bs = ds) ∧
    ((r.correlated d bs).lineText .json true = (r.correlated d ds).lineText .json true ↔
      bs = ds ∨ Mimics bs ds ∨ Mimics ds bs) := by
  constructor
  · refine ⟨fun h => ?_, fun h => h ▸ rfl⟩
    have h := congrArg Line.read? h
    rw [Line.read?_lineText, Line.read?_lineText] at h
    have h := congrArg (List.lookup "correlation_data") (Option.some.inj h)
    rw [lookup_correlated, lookup_correlated, Excerpt.token_ofBytes, Excerpt.token_ofBytes] at h
    exact Line.tells_bytes.inj (Line.Shown.token.inj (Option.some.inj h))
  · rw [← Excerpt.string_eq_iff]
    refine ⟨fun h => ?_, lineText_json_correlated⟩
    have h := congrArg Json.membersOf? h
    rw [Line.membersOf?_lineText (r := r.correlated d bs) hr,
      Line.membersOf?_lineText (r := r.correlated d ds) hr] at h
    have h := congrArg (List.lookup "correlation_data") (Option.some.inj h)
    rw [lookup_correlated_toDatum, lookup_correlated_toDatum] at h
    exact Datum.text.inj (Option.some.inj h)

/-- Text tells the byte ff from the text "hex:ff". -/
theorem correlation_told_apart :
    let spelt := bytesOf ['h', 'e', 'x', ':', 'f', 'f']
    let r (bs : List UInt8) := (Event.publishing []).record.correlated {} bs
    (Event.publishing []).record.payloadLength < UInt64.size ∧
      (r [0xFF]).lineText .text true ≠ (r spelt).lineText .text true := by
  intro spelt r
  have hr : (Event.publishing []).record.payloadLength < UInt64.size := by decide
  refine ⟨hr, fun h => ?_⟩
  have heq : [0xFF] = spelt := (correlation_told _ {} [0xFF] spelt hr).1.1 h
  exact absurd heq (by decide)

/-- **A text is mistaken for digits**: in the data format the byte ff, which is no text, has the
same line as the text "hex:ff". -/
theorem correlation_mistaken :
    let spelt := bytesOf ['h', 'e', 'x', ':', 'f', 'f']
    let r (bs : List UInt8) := (Event.publishing []).record.correlated {} bs
    [0xFF] ≠ spelt ∧ (r [0xFF]).lineText .json true = (r spelt).lineText .json true := by
  intro spelt r
  have hff : ¬Line.Textual [0xFF] := by
    rintro ⟨cs, hcs, -⟩
    have hd := Text.Utf8.decode_bytesOf cs
    rw [← hcs] at hd
    cases hd
  have hm : Mimics spelt [0xFF] := ⟨hff, rfl⟩
  exact ⟨by decide, lineText_json_correlated (Excerpt.string_eq_of_mimics hm).symm⟩

end Record

end PacketLog
