import PacketLog.Line

/-!
# Proofs — Serializing

What the line of a record is in the data format.

The line is handed over as a record that has fields of its own.  The text form has others, and both
are made from the same details only.

* `Json.Draft.toItems_map`, `Json.Draft.toEntries_map`, `Json.Draft.toMembers_cons`,
  `Json.Draft.toMembers_flat`: how the parts of a draft are written.
* `JsonLine.toJson_draft`: the record of a line has no fault, and is written as the object of what
  the text form says.
* `Record.lineText_json`: so the line never says that it has a fault.
-/

namespace PacketLog

namespace Json.Draft

variable {α : Type} {name : String} {d : Draft} {v : Json} {es : List (Draft × Draft)}
  {fs : List (Option String × Draft)} {ms ns : List (String × Json)}

/-! ### The parts of a draft -/

theorem toItems_map {f : α → Draft} {g : α → Json} (h : ∀ a, (f a).toJson = .ok (g a))
    (as : List α) : toItems (as.map f) = .ok (as.map g) := by
  induction as with
  | nil => rfl
  | cons a as ih =>
      rw [List.map_cons, toItems, h, ih]
      rfl

theorem toJson_sequence_map {f : α → Draft} {g : α → Json} (h : ∀ a, (f a).toJson = .ok (g a))
    (as : List α) : (sequence (as.map f)).toJson = .ok (.array (as.map g)) := by
  rw [toJson, toItems_map h]
  rfl

theorem toEntries_map (key : α → String) {f : α → Draft} {g : α → Json}
    (h : ∀ a, (f a).toJson = .ok (g a)) (as : List α) :
    toEntries (as.map fun a => (text (key a), f a)) = .ok (as.map fun a => (key a, g a)) := by
  induction as with
  | nil => rfl
  | cons a as ih =>
      rw [List.map_cons, toEntries, h, ih, text, Draft.key, String.ofList_toList]
      rfl

theorem toMembers_nil : toMembers [] = .ok [] := rfl

theorem toMembers_cons (h : d.toJson = .ok v) (hs : toMembers fs = .ok ms) :
    toMembers ((some name, d) :: fs) = .ok ((name, v) :: ms) := by
  rw [toMembers, h, hs]
  rfl

/-- The entries of a map without a name stand in its place. -/
theorem toMembers_flat (h : toEntries es = .ok ms) (hs : toMembers fs = .ok ns) :
    toMembers ((none, map es) :: fs) = .ok (ms ++ ns) := by
  rw [toMembers, h, hs]
  rfl

theorem toJson_record (h : toMembers fs = .ok ms) : (record fs).toJson = .ok (.object ms) := by
  rw [toJson, h]
  rfl

end Json.Draft

open Json (Draft)

/-- In capitals the name of a kind in the data format is that in the text form. -/
theorem PacketKind.toJson_draft (k : PacketKind) :
    k.draft.toJson = .ok (.string k.name.toList) := by
  have h : k.variant.toList.map Char.toUpper = k.name.toList := by cases k <;> decide
  rw [draft, h]
  rfl

namespace Line

/-! ### Fields in the data format -/

/-- What the text form says in the place of a value without parts, in the data format. -/
def Atom.toJson : Atom → Json
  | .absent             => .null
  | .word s             => .string s.toList
  | .text s             => .string s.toList
  | .bytes bs truncated => .string ((shownText? bs truncated).getD (markedHex bs))
  | .number n           => .number n
  | .code c             => .number c.toNat
  | .flag b             => .flag b

/-- What the text form says in the place of a value, in the data format. -/
def Value.toJson : Value → Json
  | .atom a        => a.toJson
  | .list as       => .array (as.map Atom.toJson)
  | .filters fs    =>
    .array (fs.map fun (f, q) =>
      .object [("filter", .string f.toList), ("qos", (Atom.ofOption (.number ·.code) q).toJson)])
  | .properties ps =>
    .array (ps.map fun (k, v) =>
      .object [("key", .string k.toList), ("value", .string v.toList)])

/-- A field as a member of an object. -/
def Field.member (f : Field) : String × Json := (f.key, f.value.toJson)

/-- Fields in the data format. -/
def jsonForm (fs : List Field) : List Char := (Json.object (fs.map Field.member)).render

theorem bytesText_eq (bs : List UInt8) (truncated : Bool) :
    bytesText bs truncated = (shownText? bs truncated).getD (markedHex bs) := by
  unfold bytesText
  cases shownText? bs truncated <;> rfl

/-- What is absent is nothing in the data format, too. -/
theorem Atom.toJson_ofOption {α : Type} {f : α → Draft} {g : α → Atom}
    (h : ∀ a, (f a).toJson = .ok (g a).toJson) (o : Option α) :
    (Draft.ofOption f o).toJson = .ok (ofOption g o).toJson := by
  cases o with
  | none => rfl
  | some a => exact h a

theorem Atom.toJson_payload (payload : Option (List UInt8)) (truncated : Bool) :
    (Draft.ofOption .string (payload.map (bytesText · truncated))).toJson =
      .ok (ofOption (.bytes · truncated) payload).toJson := by
  cases payload with
  | none => rfl
  | some bs => exact congrArg (fun cs => Except.ok (Json.string cs)) (bytesText_eq bs truncated)

theorem Atom.toJson_qos (qos : Option QoS) :
    (Draft.ofOption .number (qos.map (·.code))).toJson =
      .ok (ofOption (.number ·.code) qos).toJson := by
  cases qos <;> rfl

/-! ### Details -/

theorem Scalar.toJson_draft (s : Scalar) : s.draft.toJson = .ok s.atom.toJson := by
  cases s with
  | bytes bs =>
      rw [draft, bytesText_eq]
      rfl
  | _ => rfl

theorem DetailValue.toJson_draft (v : DetailValue) : v.draft.toJson = .ok v.value.toJson := by
  cases v with
  | scalar s => exact s.toJson_draft
  | list ss =>
      rw [draft, value, Value.toJson, List.map_map]
      exact Draft.toJson_sequence_map Scalar.toJson_draft ss

end Line

/-! ### The line -/

theorem JsonFilter.toJson_draft (s : Subscription) :
    (JsonFilter.mk s.filter (s.qos.map (·.code))).draft.toJson =
      .ok (.object [("filter", .string s.filter.toList),
        ("qos", (Line.Atom.ofOption (.number ·.code) s.qos).toJson)]) :=
  Draft.toJson_record (Draft.toMembers_cons rfl
    (Draft.toMembers_cons (Line.Atom.toJson_qos s.qos) Draft.toMembers_nil))

theorem JsonProperty.toJson_draft (p : String × String) :
    (JsonProperty.mk p.1 p.2).draft.toJson =
      .ok (.object [("key", .string p.1.toList), ("value", .string p.2.toList)]) :=
  Draft.toJson_record (Draft.toMembers_cons rfl (Draft.toMembers_cons rfl Draft.toMembers_nil))

namespace JsonLine

/-- No filters are nothing in the data format, too. -/
theorem toJson_topics (subs : List Subscription) :
    (Draft.ofOption (fun fs => .sequence (fs.map JsonFilter.draft))
      (if subs.isEmpty then none
        else some (subs.map fun s => JsonFilter.mk s.filter (s.qos.map (·.code))))).toJson =
      .ok (Line.Value.ofList .filters (subs.map fun s => (s.filter, s.qos))).toJson := by
  cases subs with
  | nil => rfl
  | cons s subs =>
      have h := Draft.toJson_sequence_map JsonFilter.toJson_draft (s :: subs)
      simpa [Draft.ofOption, Line.Value.ofList, Line.Value.toJson, Function.comp_def] using h

/-- Nor are no properties. -/
theorem toJson_properties (ps : List (String × String)) :
    (Draft.ofOption (fun ps => .sequence (ps.map JsonProperty.draft))
      (if ps.isEmpty then none else some (ps.map fun p => JsonProperty.mk p.1 p.2))).toJson =
      .ok (Line.Value.ofList .properties ps).toJson := by
  cases ps with
  | nil => rfl
  | cons p ps =>
      have h := Draft.toJson_sequence_map JsonProperty.toJson_draft (p :: ps)
      simpa [Draft.ofOption, Line.Value.ofList, Line.Value.toJson, Function.comp_def] using h

/-- The fields a line need not have are those that close a verbose line. -/
theorem toMembers_optionalFields (verbose : Bool) (r : Record) :
    Draft.toMembers (ofRecord verbose r).optionalFields =
      .ok ((Line.closingFields verbose r).map Line.Field.member) := by
  cases verbose with
  | false => exact Draft.toMembers_nil
  | true =>
      have reason := Line.Atom.toJson_ofOption (f := .text) (g := .text) (fun _ => rfl) r.reason
      exact Draft.toMembers_cons reason
        (Draft.toMembers_cons (toJson_properties r.properties) Draft.toMembers_nil)

/-- **The record of a line has no fault**, and is written as the object of what the text form
says. -/
theorem toJson_draft (verbose : Bool) (r : Record) :
    (ofRecord verbose r).draft.toJson =
      .ok (.object ((Line.fields verbose r).map Line.Field.member)) := by
  have topic := Line.Atom.toJson_ofOption (f := .text) (g := .text) (fun _ => rfl) r.topic
  have reason := Line.Atom.toJson_ofOption
    (f := fun c => .number c.toNat) (g := .code) (fun _ => rfl) r.reasonCode
  have payload := Line.Atom.toJson_payload r.payload r.truncated
  -- the details have no name of their own, and what closes the line comes after them
  have later := Draft.toMembers_flat
    (Draft.toEntries_map Line.Detail.key (fun d => d.value.toJson_draft) (Line.details verbose r))
    (toMembers_optionalFields verbose r)
  rw [Line.fields, List.map_append, List.map_append, List.map_map, List.append_assoc]
  exact Draft.toJson_record <| Draft.toMembers_cons rfl <|
    Draft.toMembers_cons r.kind.toJson_draft <| Draft.toMembers_cons rfl <|
    Draft.toMembers_cons rfl <| Draft.toMembers_cons topic <|
    Draft.toMembers_cons (toJson_topics r.subscriptions) <|
    Draft.toMembers_cons (Line.Atom.toJson_qos r.qos) <| Draft.toMembers_cons rfl <|
    Draft.toMembers_cons reason <| Draft.toMembers_cons rfl <|
    Draft.toMembers_cons payload <| Draft.toMembers_cons rfl later

theorem write_draft (verbose : Bool) (r : Record) :
    (ofRecord verbose r).draft.write = .ok (Line.jsonForm (Line.fields verbose r)) := by
  rw [Draft.write, toJson_draft]
  rfl

end JsonLine

/-- **The line of a record in the data format is the object of what the text form says.** -/
theorem Record.lineText_json (verbose : Bool) (r : Record) :
    r.lineText .json verbose = String.ofList (Line.jsonForm (Line.fields verbose r)) := by
  rw [lineText, jsonForm, JsonLine.write_draft]

end PacketLog
