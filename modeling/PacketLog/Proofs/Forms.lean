import PacketLog.Proofs.Deciphering
import PacketLog.Proofs.JsonReading
import PacketLog.Proofs.Serializing

/-!
# Proofs — Forms

Both forms of a line say the same.

* `Line.Shown.toDatum_eq_null_iff`: what is absent in one form is in the other.
* `Line.Value.toDatum_toJson`: a value in the data format is what the text form shows of it.
* `Record.forms_agree`: the line in the data format is one object, the members of which are the
  fields that are read from the text form, in their order.
-/

namespace PacketLog

/-- Members in the order of their names stay where they are. -/
theorem Json.ordered_of_ascending {ms : List (String × Datum)}
    (h : ms.Pairwise fun a b => a.1 < b.1) : Json.ordered ms = ms := by
  have hs : ms.mergeSort (fun a b => decide (a.1 ≤ b.1)) = ms := by
    refine List.mergeSort_of_pairwise (h.imp fun hab => decide_eq_true ?_)
    exact String.not_lt.1 (String.lt_asymm hab)
  unfold ordered
  rw [hs]
  clear hs
  induction h with
  | nil => rfl
  | @cons m later hm _ ih =>
      rw [List.foldr_cons, ih, if_neg]
      cases later with
      | nil => simp
      | cons l ls =>
          have hl : l.1 ≠ m.1 := fun he => String.lt_irrefl m.1 (he ▸ hm l List.mem_cons_self)
          simpa using hl

theorem Json.ordered_pair {k l : String} (h : k < l) (d e : Datum) :
    Json.ordered [(k, d), (l, e)] = [(k, d), (l, e)] :=
  ordered_of_ascending (List.pairwise_pair.2 h)

namespace Line

/-! ### What is shown, as data -/

/-- What is shown in the place of a value without parts. -/
def Token.toDatum : Token → Datum
  | .absent    => .null
  | .flag b    => .flag b
  | .number n  => .integer n
  | .code n    => .integer n
  | .word cs   => .text (String.ofList cs)
  | .quoted cs => .text (String.ofList cs)

/-- What is shown in a list. -/
def Item.toDatum : Item → Datum
  | .single t     => t.toDatum
  | .filter f qos => .table [("filter", .text (String.ofList f)), ("qos", qos.toDatum)]
  | .property k v =>
    .table [("key", .text (String.ofList k)), ("value", .text (String.ofList v))]

/-- What is shown in the place of a value. -/
def Shown.toDatum : Shown → Datum
  | .token t  => t.toDatum
  | .list is  => .array (is.map Item.toDatum)

/-- Only the sign for what is absent stands for nothing. -/
theorem Token.toDatum_eq_null_iff {t : Token} : t.toDatum = .null ↔ t = .absent := by
  cases t <;> simp [toDatum]

/-- A value is nothing exactly if the sign for what is absent is shown in its place. -/
theorem Shown.toDatum_eq_null_iff {s : Shown} : s.toDatum = .null ↔ s = .token .absent := by
  cases s with
  | token t => simp [toDatum, Token.toDatum_eq_null_iff]
  | list is => simp [toDatum]

/-! ### Values in the data format -/

theorem Atom.toDatum_toJson (a : Atom) : a.toJson.toDatum = a.shown.toDatum := by
  cases a with
  | absent => rw [toJson, Json.toDatum]; rfl
  | word s => rw [toJson, Json.toDatum]; rfl
  | text s => rw [toJson, Json.toDatum]; rfl
  | bytes bs truncated =>
      rw [toJson, Json.toDatum]
      cases h : shownText? bs truncated with
      | some cs => simp only [shown, h]; rfl
      | none => simp only [shown, h]; rfl
  | number n => rw [toJson, Json.toDatum]; rfl
  | code c => rw [toJson, Json.toDatum]; rfl
  | flag b => rw [toJson, Json.toDatum]; rfl

/-- **A value in the data format is what the text form shows of it.** -/
theorem Value.toDatum_toJson (v : Value) : v.toJson.toDatum = v.shown.toDatum := by
  cases v with
  | atom a => exact a.toDatum_toJson
  | list as =>
      rw [toJson, Json.toDatum]
      simp [shown, Shown.toDatum, Item.toDatum, Atom.toDatum_toJson]
  | filters fs =>
      rw [toJson, Json.toDatum, shown, Shown.toDatum, List.map_map, List.map_map]
      congr 1
      refine List.map_congr_left fun p _ => ?_
      simp only [Function.comp_apply, Json.toDatum, List.map_cons, List.map_nil,
        Atom.toDatum_toJson, Item.toDatum]
      rw [Json.ordered_pair (show "filter" < "qos" by decide)]
  | properties ps =>
      rw [toJson, Json.toDatum, shown, Shown.toDatum, List.map_map, List.map_map]
      congr 1
      refine List.map_congr_left fun p _ => ?_
      simp only [Function.comp_apply, Json.toDatum, List.map_cons, List.map_nil, Item.toDatum]
      rw [Json.ordered_pair (show "key" < "value" by decide)]

/-! ### Lines -/

section Lines

variable {r : Record}

theorem Atom.readable_toJson (hr : r.payloadLength < UInt64.size) {a : Atom} (h : a.Occurs r)
    (room : Nat) : a.toJson.Readable room := by
  cases h with
  | absent => exact .null
  | length => exact .number hr
  | number hn => exact .number (Nat.lt_trans hn (by decide))
  | code c => exact .number (Nat.lt_trans c.toNat_lt (by decide))
  | flag b => exact .flag b
  | _ => exact .string _

/-- The values of a line nest at most two deep. -/
theorem Value.readable_toJson (hr : r.payloadLength < UInt64.size) {v : Value} (h : v.Occurs r)
    (room : Nat) : v.toJson.Readable (room + 2) := by
  cases v with
  | atom a => exact Atom.readable_toJson hr (Value.occurs_atom.1 h) (room + 2)
  | list as =>
      refine .array fun j hj => ?_
      obtain ⟨a, ha, rfl⟩ := List.mem_map.1 hj
      exact Atom.readable_toJson hr (h a ha) (room + 1)
  | filters fs =>
      refine .array fun j hj => ?_
      obtain ⟨p, hp, rfl⟩ := List.mem_map.1 hj
      have hq := Atom.readable_toJson hr (h _ (List.mem_map_of_mem hp)) room
      refine .object ?_
      simp only [List.forall_mem_cons]
      exact ⟨.string _, hq, nofun⟩
  | properties ps =>
      refine .array fun j hj => ?_
      obtain ⟨p, -, rfl⟩ := List.mem_map.1 hj
      refine .object ?_
      simp only [List.forall_mem_cons]
      exact ⟨.string _, .string _, nofun⟩

/-- Fields in the data format are read as an object that shows what the text form does. -/
theorem membersOf?_jsonForm {fs : List Field}
    (h : ∀ f ∈ fs, f.value.toJson.Readable (Json.nestingLimit - 1)) :
    Json.membersOf? (String.ofList (jsonForm fs)) =
      some (fs.map fun f => (f.key, f.value.shown.toDatum)) := by
  have hread : ∀ m ∈ fs.map Field.member, m.2.Readable (Json.nestingLimit - 1) := by
    intro m hm
    obtain ⟨f, hf, rfl⟩ := List.mem_map.1 hm
    exact h f hf
  simpa [jsonForm, Field.member, Function.comp_def, Value.toDatum_toJson] using
    Json.membersOf?_render hread

/-- The line in the data format is read as the object of its fields. -/
theorem membersOf?_lineText (hr : r.payloadLength < UInt64.size) (verbose : Bool) :
    Json.membersOf? (r.lineText .json verbose) =
      some ((fields verbose r).map fun f => (f.key, f.value.shown.toDatum)) := by
  rw [r.lineText_json]
  exact membersOf?_jsonForm fun f hf => Value.readable_toJson hr (occurs_fields verbose r f hf) 124

end Lines

end Line

/-- **Both forms of a line say the same.**  The line in the data format has no fault, and is one
object.  Its members are the fields that are read from the text form: their names are those of the
fields, all different and in their order, and their values are what is shown there. -/
theorem Record.forms_agree (r : Record) (verbose : Bool) (hr : r.payloadLength < UInt64.size) :
    (JsonLine.ofRecord verbose r).draft.write = .ok (r.lineText .json verbose).toList ∧
    ∃ said : List (String × Line.Shown),
      Line.read? (r.lineText .text verbose) = some said ∧
      said.map Prod.fst = Line.keys verbose r ∧ (Line.keys verbose r).Nodup ∧
      Json.membersOf? (r.lineText .json verbose) =
        some (said.map fun (key, shown) => (key, shown.toDatum)) ∧
      Json.read? (r.lineText .json verbose) =
        some (.table (Json.ordered (said.map fun (key, shown) => (key, shown.toDatum)))) := by
  have hm := Line.membersOf?_lineText hr verbose
  refine ⟨?_, (Line.fields verbose r).map Line.Field.shown, Line.read?_lineText verbose r, ?_,
    Line.nodup_keys verbose r, ?_, ?_⟩
  · rw [r.lineText_json, String.toList_ofList, JsonLine.write_draft]
  · rw [List.map_map, ← Line.keys_fields]
    rfl
  · rw [hm, List.map_map]
    rfl
  · rw [Json.read?_of_membersOf? hm, List.map_map]
    rfl

/-- A request for two filters, one of which asks for no quality of service there is. -/
def Record.requesting : Record where
  kind          := .subscribe
  code          := 8
  direction     := .inbound
  client        := "\"c\""
  topic         := none
  subscriptions := [⟨"a/+", some .exactlyOnce, none⟩, ⟨"-", none, some {}⟩]
  qos           := none
  retain        := false
  payloadLength := 0
  payload       := none
  truncated     := false
  reasonCodes   := []
  reason        := none
  properties    := []
  details       := some (.subscribe {})
  time          := ⟨0, 0⟩

theorem Record.forms_agree_requesting :
    Record.requesting.payloadLength < UInt64.size ∧
      (JsonLine.ofRecord true Record.requesting).draft.write =
        .ok (Record.requesting.lineText .json true).toList ∧
      ∃ said : List (String × Line.Shown),
        Line.read? (Record.requesting.lineText .text true) = some said ∧
        said.map Prod.fst = Line.keys true Record.requesting ∧
        (Line.keys true Record.requesting).Nodup ∧
        Json.membersOf? (Record.requesting.lineText .json true) =
          some (said.map fun (key, shown) => (key, shown.toDatum)) ∧
        Json.read? (Record.requesting.lineText .json true) =
          some (.table (Json.ordered (said.map fun (key, shown) => (key, shown.toDatum)))) :=
  ⟨by decide, Record.requesting.forms_agree true (by decide)⟩

end PacketLog
