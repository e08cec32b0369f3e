import PacketLog.Proofs.Deciphering
import PacketLog.Proofs.JsonReading
import PacketLog.Proofs.Serializing

/-!
# Proofs — Verbosity

What a verbose line has besides the terse one.  The fields of the terse line come first, and in
either form what is written of them does not depend on what is written after them.

* `Line.textForm_append`, `Line.jsonForm_append`: the form of fields and further fields.
* `Line.fields_true`: a verbose line has the fields of the terse one and then others.
* `Line.fields_false_eq`: what the terse fields depend on.
* `Record.verbosity_appends`: a verbose line begins as the terse one does, which tells nothing of
  what is for verbose lines only.
-/

namespace PacketLog

/-! ### Fields and further fields -/

namespace Json

/-- Texts with a comma between each and the next, and then others. -/
theorem joined_append {β : Type} {f : β → List Char} {bs cs : List β} (hb : bs ≠ [])
    (hc : cs ≠ []) : joined f (bs ++ cs) = joined f bs ++ ',' :: joined f cs := by
  induction bs with
  | nil => exact absurd rfl hb
  | cons b bs ih =>
      cases bs with
      | nil =>
          cases cs with
          | nil => exact absurd rfl hc
          | cons c cs => rfl
      | cons b' bs =>
          have h := ih (by simp)
          rw [List.cons_append] at h
          rw [List.cons_append, List.cons_append, joined, h, joined, List.append_assoc,
            List.cons_append]

end Json

namespace Line

theorem textForm_append {fs gs : List Field} (hf : fs ≠ []) (hg : gs ≠ []) :
    textForm (fs ++ gs) = textForm fs ++ ' ' :: textForm gs := by
  cases fs with
  | nil => exact absurd rfl hf
  | cons f fs =>
      cases gs with
      | nil => exact absurd rfl hg
      | cons g gs => simp [textForm, intercalate_cons]

/-- The members of the object that fields are written as. -/
def members (fs : List Field) : List Char := Json.renderMembers (fs.map Field.member)

theorem jsonForm_eq (fs : List Field) : jsonForm fs = '\x7b' :: members fs ++ ['\x7d'] := by
  rw [jsonForm, Json.render, members]

theorem members_append {fs gs : List Field} (hf : fs ≠ []) (hg : gs ≠ []) :
    members (fs ++ gs) = members fs ++ ',' :: members gs := by
  simp only [members, Json.renderMembers_eq, List.map_append]
  exact Json.joined_append (by simpa using hf) (by simpa using hg)

theorem jsonForm_append {fs gs : List Field} (hf : fs ≠ []) (hg : gs ≠ []) :
    jsonForm (fs ++ gs) = '\x7b' :: members fs ++ (',' :: members gs ++ ['\x7d']) := by
  rw [jsonForm_eq, members_append hf hg, ← List.cons_append, List.append_assoc]

/-! ### Verbose and terse fields -/

/-- The fields of the details that only a verbose line has. -/
theorem detailFields_true (subs : List Subscription) (d : Details) :
    ∃ more, detailFields true subs d = detailFields false subs d ++ more := by
  cases d with
  | connect d => exact ⟨_, rfl⟩
  | connack d => exact ⟨_, rfl⟩
  | publish d => exact ⟨_, rfl⟩
  | subscribe d => exact ⟨_, rfl⟩
  | disconnect d => exact ⟨_, rfl⟩

theorem fields_ne_nil (verbose : Bool) (r : Record) : fields verbose r ≠ [] := by
  simp [fields, commonFields]

/-- **A verbose line has the fields of the terse one**, and then others. -/
theorem fields_true (r : Record) : ∃ more, more ≠ [] ∧ fields true r = fields false r ++ more := by
  have hdetails : ∃ more, (r.details.map (detailFields true r.subscriptions)).getD [] =
      (r.details.map (detailFields false r.subscriptions)).getD [] ++ more := by
    cases r.details with
    | none => exact ⟨[], rfl⟩
    | some d => exact detailFields_true r.subscriptions d
  obtain ⟨more, hmore⟩ := hdetails
  refine ⟨more ++ closingFields true r, by simp [closingFields], ?_⟩
  simp [fields_eq, hmore, closingFields]

end Line

/-! ### What a terse line tells -/

/-- The details are of one kind and agree on what a terse line shows of them. -/
inductive Details.TerselyAlike : Details → Details → Prop where
  | connect {d e : ConnectDetails} (version : d.protocolVersion = e.protocolVersion)
      (clean : d.cleanStart = e.cleanStart) (expiry : d.sessionExpiry = e.sessionExpiry) :
      TerselyAlike (.connect d) (.connect e)
  | connack {d e : ConnackDetails} (present : d.sessionPresent = e.sessionPresent) :
      TerselyAlike (.connack d) (.connack e)
  | publish (d e : PublishDetails) : TerselyAlike (.publish d) (.publish e)
  | subscribe (d e : SubscribeDetails) : TerselyAlike (.subscribe d) (.subscribe e)
  | disconnect (d e : DisconnectDetails) : TerselyAlike (.disconnect d) (.disconnect e)

/-- The records differ only in what is for verbose lines: the reason, the properties, the options of
filters, and most of the details. -/
structure Record.TerselyAlike (r s : Record) : Prop where
  /-- The filters and what they ask for are the same, whatever their options. -/
  filters : r.subscriptions.map (fun u => (u.filter, u.qos)) =
    s.subscriptions.map fun u => (u.filter, u.qos)
  details : Option.Rel Details.TerselyAlike r.details s.details
  rest    : { r with
    subscriptions := s.subscriptions, reason := s.reason, properties := s.properties
    details := s.details } = s

namespace Line

theorem detailFields_false_eq {d e : Details} (h : d.TerselyAlike e) (as bs : List Subscription) :
    detailFields false as d = detailFields false bs e := by
  cases h with
  | connect version clean expiry =>
      simp only [detailFields, detailsOf, connectDetails, version, clean, expiry,
        Bool.false_eq_true, if_false]
  | connack present =>
      simp only [detailFields, detailsOf, connackDetails, present, Bool.false_eq_true, if_false]
  | publish d e => rfl
  | subscribe d e => rfl
  | disconnect d e => rfl

/-- Of the filters, the common fields show no options, and of what is for verbose lines nothing. -/
theorem commonFields_eq {r s : Record}
    (hfilters : r.subscriptions.map (fun u => (u.filter, u.qos)) =
      s.subscriptions.map fun u => (u.filter, u.qos))
    (hrest : { r with
      subscriptions := s.subscriptions, reason := s.reason, properties := s.properties
      details := s.details } = s) :
    commonFields r = commonFields s := by
  rw [← hrest]
  simp only [commonFields, hfilters, Record.reasonCode]

/-- **The fields of a terse line** do not depend on what is for verbose lines. -/
theorem fields_false_eq {r s : Record} (h : r.TerselyAlike s) :
    fields false r = fields false s := by
  have hdetails : (r.details.map (detailFields false r.subscriptions)).getD [] =
      (s.details.map (detailFields false s.subscriptions)).getD [] := by
    have hd := h.details
    generalize r.details = o at hd ⊢
    generalize s.details = p at hd ⊢
    cases hd with
    | none => rfl
    | some hd => exact detailFields_false_eq hd _ _
  rw [fields_eq, fields_eq, commonFields_eq h.filters h.rest, hdetails]
  rfl

end Line

/-! ### Lines -/

namespace Record

theorem lineText_text_true (r : Record) :
    ∃ more, r.lineText .text true = r.lineText .text false ++ more := by
  obtain ⟨more, hmore, h⟩ := Line.fields_true r
  refine ⟨String.ofList (' ' :: Line.textForm more), ?_⟩
  simp only [lineText, h, Line.textForm_append (Line.fields_ne_nil false r) hmore,
    String.ofList_append]

/-- The object of a terse line is left open for further members. -/
theorem lineText_json_true (r : Record) : ∃ said more,
    r.lineText .json false = said ++ "\x7d" ∧ r.lineText .json true = said ++ more := by
  obtain ⟨more, hmore, h⟩ := Line.fields_true r
  refine ⟨String.ofList ('\x7b' :: Line.members (Line.fields false r)),
    String.ofList (',' :: Line.members more ++ ['\x7d']), ?_, ?_⟩
  · simp only [lineText_json, Line.jsonForm_eq, String.ofList_append]
  · simp only [lineText_json, h, Line.jsonForm_append (Line.fields_ne_nil false r) hmore,
      String.ofList_append]

theorem line_false_eq {r s : Record} (h : r.TerselyAlike s) (format : LineFormat) :
    r.line format false = s.line format false := by
  have hf := Line.fields_false_eq h
  have hkind : r.kind = s.kind := (congrArg Record.kind h.rest :)
  have hclient : r.client = s.client := (congrArg Record.client h.rest :)
  have htime : r.time = s.time := (congrArg Record.time h.rest :)
  have htext : r.lineText format false = s.lineText format false := by
    cases format with
    | text => simp only [lineText, hf]
    | json => simp only [lineText_json, hf]
  simp only [line, htext, hkind, hclient, htime]

/-- **A verbose line only goes on where the terse one ends.**  The text of the terse line is the
beginning of that of the verbose one, in the data format but for the brace that closes it.  The
terse line itself is that of every record that differs only in what is for verbose lines. -/
theorem verbosity_appends (r : Record) :
    (∃ more, r.lineText .text true = r.lineText .text false ++ more) ∧
    (∃ said more, r.lineText .json false = said ++ "\x7d" ∧ r.lineText .json true = said ++ more) ∧
    ∀ s, r.TerselyAlike s → ∀ format, r.line format false = s.line format false :=
  ⟨r.lineText_text_true, r.lineText_json_true, fun _ h format => line_false_eq h format⟩

end Record

/-- A user who connects. -/
def Event.connecting (user : String) : Event where
  code       := 1
  direction  := .inbound
  client     := "c"
  reason     := some user
  properties := [("user", user)]
  details    := some (.connect { protocolVersion := 5, username := some user })
  time       := ⟨0, 0⟩

/-- Users whom only a verbose line tells apart. -/
theorem Record.verbosity_appends_connecting :
    let r := (Event.connecting "a").record
    let s := (Event.connecting "b").record
    r ≠ s ∧ r.TerselyAlike s ∧ ∀ format, r.line format false = s.line format false := by
  intro r s
  have h : r.TerselyAlike s :=
    { filters := rfl, details := .some (.connect rfl rfl rfl), rest := rfl }
  exact ⟨by decide, h, r.verbosity_appends.2.2 s h⟩

end PacketLog
