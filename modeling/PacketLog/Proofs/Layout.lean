import PacketLog.Line.Field

/-!
# Proofs — Layout

What the fields of a line are.

* `Line.keys_fields`, `Line.nodup_keys`: their names, which are known from the kind of the details
  and are all different.
* `Line.occurs_fields`: the values without parts that can stand in them.
-/

namespace PacketLog.Line

/-! ### Names -/

/-- The names of the fields that every line has. -/
def commonKeys : List String :=
  ["ts", "kind", "dir", "client", "topic", "topics", "qos", "retain", "reason", "payload_len",
    "payload", "truncated"]

/-- The names of the fields of the details of a packet. -/
def detailKeys (verbose : Bool) : Details → List String
  | .connect _    =>
    ["protocol_version", "clean_start", "session_expiry"] ++
      if verbose then
        ["keep_alive", "receive_maximum", "maximum_packet_size", "username", "auth_method",
          "will_topic", "will_qos", "will_retain", "will_delay"]
      else []
  | .connack _    =>
    ["session_present"] ++
      if verbose then
        ["session_expiry", "assigned_client_id", "server_keep_alive", "maximum_qos",
          "response_information", "server_reference"]
      else []
  | .publish _    =>
    if verbose then
      ["duplicate", "message_expiry", "content_type", "response_topic", "correlation_data",
        "subscription_ids"]
    else []
  | .subscribe _  =>
    if verbose then ["subscription_id", "no_local", "retain_as_published", "retain_handling"]
    else []
  | .disconnect _ => if verbose then ["session_expiry", "server_reference"] else []

/-- The names of the fields that close a verbose line. -/
def closingKeys (verbose : Bool) : List String :=
  if verbose then ["reason_string", "user_properties"] else []

/-- The names of the fields of a line, in their order. -/
def keys (verbose : Bool) (r : Record) : List String :=
  commonKeys ++ (r.details.map (detailKeys verbose)).getD [] ++ closingKeys verbose

/-- The details of a packet with these filters, as fields. -/
def detailFields (verbose : Bool) (subs : List Subscription) (d : Details) : List Field :=
  (detailsOf verbose subs d).map Detail.field

theorem fields_eq (verbose : Bool) (r : Record) :
    fields verbose r = commonFields r ++
        (r.details.map (detailFields verbose r.subscriptions)).getD [] ++
      closingFields verbose r := by
  unfold fields details
  cases r.details <;> rfl

@[simp] theorem value_perFilter (f : SubscriptionOptions → Scalar) (subs : List Subscription) :
    (perFilter f subs).value =
      .list (subs.map fun s => .ofOption (fun o => (f o).atom) s.options) := by
  rw [perFilter, DetailValue.value, List.map_map]
  exact congrArg Value.list (List.map_congr_left fun s _ => Scalar.atom_ofOption f s.options)

theorem keys_detailFields (verbose : Bool) (subs : List Subscription) (d : Details) :
    (detailFields verbose subs d).map Field.key = detailKeys verbose d := by
  cases d <;> cases verbose <;> rfl

theorem keys_fields (verbose : Bool) (r : Record) :
    (fields verbose r).map Field.key = keys verbose r := by
  rw [fields_eq, keys, List.map_append, List.map_append]
  congr 1
  · congr 1
    cases r.details with
    | none => rfl
    | some d => exact keys_detailFields verbose r.subscriptions d
  · cases verbose <;> rfl

/-- **No two fields of a line have the same name.** -/
theorem nodup_keys (verbose : Bool) (r : Record) : (keys verbose r).Nodup := by
  unfold keys
  cases r.details with
  | none => cases verbose <;> decide
  | some d => cases d <;> cases verbose <;> simp [commonKeys, detailKeys, closingKeys]

theorem not_mem_of_mem_detailKeys {verbose : Bool} {d : Details} :
    ∀ key ∈ detailKeys verbose d, '=' ∉ key.toList := by
  cases d <;> cases verbose <;> simp [detailKeys]

/-- No name contains an equals sign. -/
theorem not_mem_of_mem_keys {verbose : Bool} {r : Record} :
    ∀ key ∈ keys verbose r, '=' ∉ key.toList := by
  unfold keys
  simp only [List.forall_mem_append]
  refine ⟨⟨by simp [commonKeys], ?_⟩, by cases verbose <;> simp [closingKeys]⟩
  cases r.details with
  | none => exact nofun
  | some d => exact not_mem_of_mem_detailKeys

/-! ### Values -/

/-- The values without parts that a value is made of, but for the texts of its filters and
properties. -/
def Value.atoms : Value → List Atom
  | .atom a       => [a]
  | .list as      => as
  | .filters fs   => fs.map fun (_, q) => .ofOption (.number ·.code) q
  | .properties _ => []

/-- A value that can stand in the line of a record. -/
inductive Atom.Occurs (r : Record) : Atom → Prop where
  | absent : Occurs r .absent
  | time : Occurs r (.word r.time.text)
  | kind : Occurs r (.word r.kind.name)
  | direction : Occurs r (.word r.direction.label)
  | text (s : String) : Occurs r (.text s)
  | bytes (bs : List UInt8) (truncated : Bool) : Occurs r (.bytes bs truncated)
  | length : Occurs r (.number r.payloadLength)
  | number {n : Nat} (h : n < UInt32.size) : Occurs r (.number n)
  | code (c : UInt8) : Occurs r (.code c)
  | flag (b : Bool) : Occurs r (.flag b)

section Values

variable {r : Record}

@[simp] theorem Atom.occurs_text (s : String) : (text s).Occurs r := .text s

@[simp] theorem Atom.occurs_bytes (bs : List UInt8) (truncated : Bool) :
    (bytes bs truncated).Occurs r := .bytes bs truncated

@[simp] theorem Atom.occurs_code (c : UInt8) : (code c).Occurs r := .code c

@[simp] theorem Atom.occurs_flag (b : Bool) : (flag b).Occurs r := .flag b

@[simp] theorem Atom.occurs_uint8 (n : UInt8) : (number n.toNat).Occurs r :=
  .number (Nat.lt_trans n.toNat_lt (by decide))

@[simp] theorem Atom.occurs_uint16 (n : UInt16) : (number n.toNat).Occurs r :=
  .number (Nat.lt_trans n.toNat_lt (by decide))

@[simp] theorem Atom.occurs_uint32 (n : UInt32) : (number n.toNat).Occurs r :=
  .number n.toNat_lt

@[simp] theorem Atom.occurs_qos (q : QoS) : (number q.code).Occurs r := by
  refine .number ?_
  cases q <;> decide

@[simp] theorem Atom.occurs_ofOption {α : Type} {f : α → Atom} {o : Option α}
    (h : ∀ a, (f a).Occurs r) : (ofOption f o).Occurs r := by
  cases o with
  | none => exact .absent
  | some a => exact h a

/-- Every value without parts that the value is made of can stand in the line. -/
def Value.Occurs (r : Record) (v : Value) : Prop := ∀ a ∈ v.atoms, a.Occurs r

@[simp] theorem Value.occurs_atom {a : Atom} : (atom a).Occurs r ↔ a.Occurs r := by
  simp [Value.Occurs, atoms]

@[simp] theorem Value.occurs_list {as : List Atom} : (list as).Occurs r ↔ ∀ a ∈ as, a.Occurs r :=
  Iff.rfl

@[simp] theorem Value.occurs_filters (fs : List (String × Option QoS)) :
    (filters fs).Occurs r := by
  intro a ha
  obtain ⟨p, -, rfl⟩ := List.mem_map.1 ha
  exact Atom.occurs_ofOption Atom.occurs_qos

@[simp] theorem Value.occurs_properties (ps : List (String × String)) :
    (properties ps).Occurs r := nofun

@[simp] theorem Value.occurs_ofList {α : Type} {f : List α → Value} {as : List α}
    (h : (f as).Occurs r) : (ofList f as).Occurs r := by
  cases as with
  | nil => exact Value.occurs_atom.2 .absent
  | cons b as => exact h

@[simp] theorem Field.occurs_atom {key : String} {a : Atom} :
    (Field.atom key a).value.Occurs r ↔ a.Occurs r := Value.occurs_atom

theorem occurs_commonFields : ∀ f ∈ commonFields r, f.value.Occurs r := by
  have ht : (Atom.word r.time.text).Occurs r := .time
  have hk : (Atom.word r.kind.name).Occurs r := .kind
  have hd : (Atom.word r.direction.label).Occurs r := .direction
  have hl : (Atom.number r.payloadLength).Occurs r := .length
  simp [commonFields, ht, hk, hd, hl]

theorem occurs_detailFields (verbose : Bool) (subs : List Subscription) (d : Details) :
    ∀ f ∈ detailFields verbose subs d, f.value.Occurs r := by
  cases d with
  | connect d => cases verbose <;> simp [detailFields, detailsOf, connectDetails]
  | connack d => cases verbose <;> simp [detailFields, detailsOf, connackDetails]
  | publish d => cases verbose <;> simp [detailFields, detailsOf, publishDetails]
  | subscribe d => cases verbose <;> simp [detailFields, detailsOf, subscribeDetails]
  | disconnect d => cases verbose <;> simp [detailFields, detailsOf, disconnectDetails]

theorem occurs_closingFields (verbose : Bool) :
    ∀ f ∈ closingFields verbose r, f.value.Occurs r := by
  cases verbose <;> simp [closingFields]

/-- **A line is made of the values that can stand in it.** -/
theorem occurs_fields (verbose : Bool) (r : Record) :
    ∀ f ∈ fields verbose r, f.value.Occurs r := by
  rw [fields_eq]
  simp only [List.forall_mem_append]
  refine ⟨⟨occurs_commonFields, ?_⟩, occurs_closingFields verbose⟩
  cases r.details with
  | none => exact nofun
  | some d => exact occurs_detailFields verbose r.subscriptions d

end Values

end PacketLog.Line
