import PacketLog.Proofs.Deciphering
import PacketLog.Proofs.Unicode

/-!
# Proofs — Lossless

What the verbose text of a line says of its record.

* `Line.tells_text`, `Line.tells_number`: what is shown of a value without parts tells the value
  and is not the sign for what is absent.
* `Line.details_inj`: the fields of the details tell the details.
* `Record.agree_of_lineText_eq`: records with the same verbose line agree on all that a line is
  about, but for what a cut has left of a character at the end of the payload.
-/

namespace PacketLog

/-- The name of a kind is the name of no other. -/
theorem PacketKind.ofName?_name (k : PacketKind) : PacketKind.ofName? k.name = some k := by
  cases k <;> rfl

theorem PacketKind.name_inj {k l : PacketKind} (h : k.name = l.name) : k = l := by
  have hk := ofName?_name k
  rw [h, ofName?_name l] at hk
  exact (Option.some.inj hk).symm

theorem Direction.label_inj {d e : Direction} (h : d.label = e.label) : d = e := by
  cases d with
  | inbound =>
      cases e with
      | inbound => rfl
      | outbound => simp [label] at h
  | outbound =>
      cases e with
      | inbound => simp [label] at h
      | outbound => rfl

theorem QoS.code_inj {p q : QoS} (h : p.code = q.code) : p = q := by
  cases p with
  | atMostOnce => cases q with
      | atMostOnce => rfl
      | _ => cases h
  | atLeastOnce => cases q with
      | atLeastOnce => rfl
      | _ => cases h
  | exactlyOnce => cases q with
      | exactlyOnce => rfl
      | _ => cases h

namespace Line

open Text.Utf8 (bytesOf Incomplete)

/-! ### Values without parts -/

@[simp] theorem Field.shown_mk (key : String) (v : Value) :
    (Field.mk key v).shown = (key, v.shown) := rfl

@[simp] theorem Field.shown_atom (key : String) (a : Atom) :
    (Field.atom key a).shown = (key, .token a.shown) := rfl

@[simp] theorem Atom.shown_word (s : String) : (word s).shown = .word s.toList := rfl

@[simp] theorem Atom.shown_text (s : String) : (text s).shown = .quoted s.toList := rfl

@[simp] theorem Atom.shown_number (n : Nat) : (number n).shown = .number n := rfl

@[simp] theorem Atom.shown_flag (b : Bool) : (flag b).shown = .flag b := rfl

/-- What is shown of the values is not the sign for what is absent, and tells one from another. -/
structure Tells {α : Type} (f : α → Atom) : Prop where
  present : ∀ a, (f a).shown ≠ .absent
  inj     : Function.Injective fun a => (f a).shown

theorem Tells.ofOption_inj {α : Type} {f : α → Atom} (hf : Tells f) {o p : Option α} :
    (Atom.ofOption f o).shown = (Atom.ofOption f p).shown ↔ o = p := by
  refine ⟨fun h => ?_, fun h => h ▸ rfl⟩
  cases o with
  | none =>
      cases p with
      | none => rfl
      | some b => exact absurd h.symm (hf.present b)
  | some a =>
      cases p with
      | none => exact absurd h (hf.present a)
      | some b => rw [hf.inj h]

theorem tells_text : Tells Atom.text where
  present _ := nofun
  inj _ _ h := String.toList_inj.1 (Token.quoted.inj h)

theorem tells_number {α : Type} {n : α → Nat} (hn : Function.Injective n) :
    Tells (.number <| n ·) where
  present _ := nofun
  inj _ _ h := hn (Token.number.inj h)

theorem tells_uint8 : Tells fun n : UInt8 => .number n.toNat :=
  tells_number fun _ _ => UInt8.toNat_inj.1

theorem tells_uint16 : Tells fun n : UInt16 => .number n.toNat :=
  tells_number fun _ _ => UInt16.toNat_inj.1

theorem tells_uint32 : Tells fun n : UInt32 => .number n.toNat :=
  tells_number fun _ _ => UInt32.toNat_inj.1

theorem tells_code : Tells Atom.code where
  present _ := nofun
  inj _ _ h := UInt8.toNat_inj.1 (Token.code.inj h)

/-- The bytes are the same, or they have been cut off and spell the same text, after which at most
the beginning of a character is left. -/
def SameSample (truncated : Bool) (bs ds : List UInt8) : Prop :=
  bs = ds ∨ truncated = true ∧ ∃ cs t u, bs = bytesOf cs ++ t ∧ ds = bytesOf cs ++ u ∧
    (t = [] ∨ Incomplete t) ∧ (u = [] ∨ Incomplete u)

theorem present_bytes (bs : List UInt8) (truncated : Bool) :
    (Atom.bytes bs truncated).shown ≠ .absent := by
  unfold Atom.shown
  simp only
  split
  · exact nofun
  · exact nofun

/-- What is shown of bytes tells them, as far as they make up characters. -/
theorem sameSample_of_shown {bs ds : List UInt8} {truncated : Bool}
    (h : (Atom.bytes bs truncated).shown = (Atom.bytes ds truncated).shown) :
    SameSample truncated bs ds := by
  unfold Atom.shown at h
  simp only at h
  -- a text is shown in quotes and other bytes as a word, so that either both are texts or none is
  cases hb : shownText? bs truncated with
  | none =>
      cases hd : shownText? ds truncated with
      | none =>
          rw [hb, hd] at h
          have hx : markedHex bs = markedHex ds := Token.word.inj h
          exact .inl (Text.hexBytes_inj (List.append_cancel_left hx))
      | some cs =>
          rw [hb, hd] at h
          cases h
  | some cs =>
      cases hd : shownText? ds truncated with
      | none =>
          rw [hb, hd] at h
          cases h
      | some es =>
          rw [hb, hd] at h
          obtain rfl : cs = es := Token.quoted.inj h
          obtain ⟨t, rfl, ht⟩ := eq_of_shownText? hb
          obtain ⟨u, rfl, hu⟩ := eq_of_shownText? hd
          rcases ht with rfl | ⟨hc, ht⟩
          · rcases hu with rfl | ⟨hc, hu⟩
            · exact .inl rfl
            · exact .inr ⟨hc, cs, [], u, rfl, rfl, .inl rfl, .inr hu⟩
          · exact .inr ⟨hc, cs, t, u, rfl, rfl, .inr ht, hu.imp_right And.right⟩

theorem tells_bytes : Tells (Atom.bytes · false) where
  present bs := present_bytes bs false
  inj _ _ h := (sameSample_of_shown h).resolve_right nofun

/-! ### Lists -/

/-- A list that is shown tells whether it is empty. -/
theorem shown_eq_of_ofList {α : Type} {f : List α → Value} {as bs : List α}
    (hf : ∀ as, (f as).shown ≠ .token .absent)
    (h : (Value.ofList f as).shown = (Value.ofList f bs).shown) : (f as).shown = (f bs).shown := by
  cases as with
  | nil =>
      cases bs with
      | nil => rfl
      | cons b bs => exact absurd h.symm (hf (b :: bs))
  | cons a as =>
      cases bs with
      | nil => exact absurd h (hf (a :: as))
      | cons b bs => exact h

theorem filters_inj {fs gs : List (String × Option QoS)}
    (h : (Value.ofList .filters fs).shown = (Value.ofList .filters gs).shown) : fs = gs := by
  have h := Shown.list.inj (shown_eq_of_ofList (fun _ => Shown.noConfusion) h)
  refine (List.map_inj_right ?_).1 h
  rintro ⟨f, p⟩ ⟨g, q⟩ h
  obtain ⟨hf, hq⟩ := Item.filter.inj h
  rw [String.toList_inj.1 hf, (tells_number fun _ _ => QoS.code_inj).ofOption_inj.1 hq]

theorem properties_inj {ps qs : List (String × String)}
    (h : (Value.ofList .properties ps).shown = (Value.ofList .properties qs).shown) : ps = qs := by
  have h := Shown.list.inj (shown_eq_of_ofList (fun _ => Shown.noConfusion) h)
  refine (List.map_inj_right ?_).1 h
  rintro ⟨k, v⟩ ⟨l, w⟩ h
  obtain ⟨hk, hv⟩ := Item.property.inj h
  rw [String.toList_inj.1 hk, String.toList_inj.1 hv]

theorem numbers_inj {ns ms : List UInt32}
    (h : (Value.ofList .list (ns.map (Atom.number ·.toNat))).shown =
      (Value.ofList .list (ms.map (Atom.number ·.toNat))).shown) : ns = ms := by
  have h := Shown.list.inj (shown_eq_of_ofList (fun _ => Shown.noConfusion) h)
  rw [List.map_map, List.map_map] at h
  refine (List.map_inj_right ?_).1 h
  intro n m h
  exact UInt32.toNat_inj.1 (Token.number.inj (Item.single.inj h))

/-! ### The details of a packet -/

/-- What is shown of the message for a client that is gone tells the message. -/
theorem will_inj {o p : Option Will}
    (htopic : (Atom.ofOption (.text ·.topic) o).shown = (Atom.ofOption (.text ·.topic) p).shown)
    (hqos : (Atom.ofOption (.number ·.qos.toNat) o).shown =
      (Atom.ofOption (.number ·.qos.toNat) p).shown)
    (hretain : (Atom.ofOption (.flag ·.retain) o).shown = (Atom.ofOption (.flag ·.retain) p).shown)
    (hdelay : (Atom.ofOption (.number ·.delay.toNat) o).shown =
      (Atom.ofOption (.number ·.delay.toNat) p).shown) : o = p := by
  cases o with
  | none =>
      cases p with
      | none => rfl
      | some b => cases htopic
  | some a =>
      cases p with
      | none => cases htopic
      | some b =>
          obtain ⟨topic, qos, retain, delay⟩ := a
          have ht := String.toList_inj.1 (Token.quoted.inj htopic)
          have hq := UInt8.toNat_inj.1 (Token.number.inj hqos)
          have hr := Token.flag.inj hretain
          have hd := UInt32.toNat_inj.1 (Token.number.inj hdelay)
          simp only at ht hq hr hd
          subst ht hq hr hd
          rfl

theorem connect_inj {d e : ConnectDetails} {as bs : List Subscription}
    (h : (detailFields true as (.connect d)).map Field.shown =
      (detailFields true bs (.connect e)).map Field.shown) : d = e := by
  simp [detailFields, detailsOf, connectDetails, tells_text.ofOption_inj, tells_uint16.ofOption_inj,
    tells_uint32.ofOption_inj, UInt8.toNat_inj, UInt16.toNat_inj, UInt32.toNat_inj] at h
  obtain ⟨hversion, hclean, hexpiry, hkeep, hmax, hsize, huser, hauth, htopic, hqos, hretain,
    hdelay⟩ := h
  have hwill := will_inj htopic hqos hretain hdelay
  cases d
  cases e
  simp only at *
  subst hversion hclean hexpiry hkeep hmax hsize huser hauth hwill
  rfl

theorem connack_inj {d e : ConnackDetails} {as bs : List Subscription}
    (h : (detailFields true as (.connack d)).map Field.shown =
      (detailFields true bs (.connack e)).map Field.shown) : d = e := by
  simp [detailFields, detailsOf, connackDetails, tells_text.ofOption_inj, tells_uint8.ofOption_inj,
    tells_uint16.ofOption_inj, tells_uint32.ofOption_inj] at h
  cases d
  cases e
  simpa using h

theorem publish_inj {d e : PublishDetails} {as bs : List Subscription}
    (h : (detailFields true as (.publish d)).map Field.shown =
      (detailFields true bs (.publish e)).map Field.shown) : d = e := by
  simp [detailFields, detailsOf, publishDetails, tells_text.ofOption_inj, tells_uint32.ofOption_inj,
    tells_bytes.ofOption_inj] at h
  obtain ⟨hdup, hexpiry, htype, htopic, hdata, hids⟩ := h
  have hids := numbers_inj hids
  cases d
  cases e
  simp only at *
  subst hdup hexpiry htype htopic hdata hids
  rfl

theorem disconnect_inj {d e : DisconnectDetails} {as bs : List Subscription}
    (h : (detailFields true as (.disconnect d)).map Field.shown =
      (detailFields true bs (.disconnect e)).map Field.shown) : d = e := by
  simp [detailFields, detailsOf, disconnectDetails, tells_text.ofOption_inj,
    tells_uint32.ofOption_inj] at h
  cases d
  cases e
  simpa using h

/-- What is shown of the options of a filter tells the options. -/
theorem options_inj {o p : Option SubscriptionOptions}
    (hlocal : (Scalar.ofOption (.flag ·.noLocal) o).atom.shown =
      (Scalar.ofOption (.flag ·.noLocal) p).atom.shown)
    (hretain : (Scalar.ofOption (.flag ·.retainAsPublished) o).atom.shown =
      (Scalar.ofOption (.flag ·.retainAsPublished) p).atom.shown)
    (hhandling : (Scalar.ofOption (.number ·.retainHandling.toNat) o).atom.shown =
      (Scalar.ofOption (.number ·.retainHandling.toNat) p).atom.shown) : o = p := by
  cases o with
  | none =>
      cases p with
      | none => rfl
      | some b => cases hlocal
  | some a =>
      cases p with
      | none => cases hlocal
      | some b =>
          obtain ⟨noLocal, retainAsPublished, retainHandling⟩ := a
          have hl := Token.flag.inj hlocal
          have hr := Token.flag.inj hretain
          have hh := UInt8.toNat_inj.1 (Token.number.inj hhandling)
          simp only at hl hr hh
          subst hl hr hh
          rfl

/-- Subscriptions with the same filters and options. -/
theorem subscriptions_inj {as bs : List Subscription}
    (hfilters : as.map (fun s => (s.filter, s.qos)) = bs.map (fun s => (s.filter, s.qos)))
    (hlocal : (perFilter (.flag ·.noLocal) as).value.shown =
      (perFilter (.flag ·.noLocal) bs).value.shown)
    (hretain : (perFilter (.flag ·.retainAsPublished) as).value.shown =
      (perFilter (.flag ·.retainAsPublished) bs).value.shown)
    (hhandling : (perFilter (.number ·.retainHandling.toNat) as).value.shown =
      (perFilter (.number ·.retainHandling.toNat) bs).value.shown) : as = bs := by
  -- the four lists that are shown are taken apart side by side
  induction as generalizing bs with
  | nil =>
      cases bs with
      | nil => rfl
      | cons b bs => cases hfilters
  | cons a as ih =>
      cases bs with
      | nil => cases hfilters
      | cons b bs =>
          obtain ⟨hf, hfilters⟩ := List.cons.inj hfilters
          obtain ⟨hl, hlocal⟩ := List.cons.inj (Shown.list.inj hlocal)
          obtain ⟨hr, hretain⟩ := List.cons.inj (Shown.list.inj hretain)
          obtain ⟨hh, hhandling⟩ := List.cons.inj (Shown.list.inj hhandling)
          have ho := options_inj (Item.single.inj hl) (Item.single.inj hr) (Item.single.inj hh)
          obtain ⟨hf, hq⟩ := Prod.mk.inj hf
          rw [ih hfilters (congrArg Shown.list hlocal) (congrArg Shown.list hretain)
            (congrArg Shown.list hhandling)]
          cases a
          cases b
          simp only at hf hq ho
          rw [hf, hq, ho]

/-- The names of the fields tell the kind of the details. -/
theorem kind_eq_of_detailKeys {d e : Details} (h : detailKeys true d = detailKeys true e) :
    d.kind = e.kind := by
  cases d <;> cases e <;> first | rfl | simp [detailKeys] at h

/-- Details whose fields are shown alike are of the same kind. -/
theorem detailKeys_eq_of_shown {d e : Details} {as bs : List Subscription}
    (h : (detailFields true as d).map Field.shown = (detailFields true bs e).map Field.shown) :
    detailKeys true d = detailKeys true e := by
  have h := congrArg (List.map Prod.fst) h
  rw [List.map_map, List.map_map] at h
  rw [← keys_detailFields true as, ← keys_detailFields true bs]
  exact h

/-- The verbose fields of the details tell the details, and with those of a SUBSCRIBE packet also
the subscriptions. -/
theorem details_inj {d e : Details} {as bs : List Subscription}
    (hfilters : as.map (fun s => (s.filter, s.qos)) = bs.map (fun s => (s.filter, s.qos)))
    (h : (detailFields true as d).map Field.shown = (detailFields true bs e).map Field.shown) :
    d = e ∧ (d.kind = .subscribe → as = bs) := by
  -- the names of the fields leave only the cases in which both are of one kind
  have hk : d.kind = e.kind := kind_eq_of_detailKeys (detailKeys_eq_of_shown h)
  cases d with
  | connect d =>
      cases e with
      | connect e =>
          refine ⟨congrArg _ (connect_inj h), ?_⟩
          rintro ⟨⟩
      | _ => cases hk
  | connack d =>
      cases e with
      | connack e =>
          refine ⟨congrArg _ (connack_inj h), ?_⟩
          rintro ⟨⟩
      | _ => cases hk
  | publish d =>
      cases e with
      | publish e =>
          refine ⟨congrArg _ (publish_inj h), ?_⟩
          rintro ⟨⟩
      | _ => cases hk
  | subscribe d =>
      cases e with
      | subscribe e =>
          obtain ⟨i⟩ := d
          obtain ⟨j⟩ := e
          simp [detailFields, detailsOf, subscribeDetails, tells_uint32.ofOption_inj,
            -value_perFilter] at h
          obtain ⟨rfl, hl, hr, hh⟩ := h
          exact ⟨rfl, fun _ => subscriptions_inj hfilters hl hr hh⟩
      | _ => cases hk
  | disconnect d =>
      cases e with
      | disconnect e =>
          refine ⟨congrArg _ (disconnect_inj h), ?_⟩
          rintro ⟨⟩
      | _ => cases hk

end Line

/-- What the records agree on whose verbose lines are the same. -/
structure Record.Agree (r s : Record) : Prop where
  time          : r.time.seconds = s.time.seconds ∧ r.time.nanos / 1000000 = s.time.nanos / 1000000
  kind          : r.kind = s.kind
  direction     : r.direction = s.direction
  client        : r.client = s.client
  topic         : r.topic = s.topic
  filters       : r.subscriptions.map (fun u => (u.filter, u.qos)) =
    s.subscriptions.map (fun u => (u.filter, u.qos))
  qos           : r.qos = s.qos
  retain        : r.retain = s.retain
  reasonCode    : r.reasonCode = s.reasonCode
  payloadLength : r.payloadLength = s.payloadLength
  truncated     : r.truncated = s.truncated
  payload       : Option.Rel (Line.SameSample r.truncated) r.payload s.payload
  reason        : r.reason = s.reason
  properties    : r.properties = s.properties
  details       : r.details = s.details
  /-- With the details of a SUBSCRIBE packet, the options of every filter. -/
  subscriptions : r.details.map Details.kind = some .subscribe → r.subscriptions = s.subscriptions

namespace Line

/-- The verbose fields of a record tell whether it has details, and which. -/
theorem details?_inj {o p : Option Details} {as bs : List Subscription}
    (hfilters : as.map (fun s => (s.filter, s.qos)) = bs.map (fun s => (s.filter, s.qos)))
    (h : ((o.map (detailFields true as)).getD []).map Field.shown =
      ((p.map (detailFields true bs)).getD []).map Field.shown) :
    o = p ∧ (o.map Details.kind = some .subscribe → as = bs) := by
  have ne (subs : List Subscription) (d : Details) :
      (detailFields true subs d).map Field.shown ≠ [] := by
    cases d <;> exact nofun
  cases o with
  | none =>
      cases p with
      | none => exact ⟨rfl, nofun⟩
      | some e => exact absurd h.symm (ne bs e)
  | some d =>
      cases p with
      | none => exact absurd h (ne as d)
      | some e =>
          obtain ⟨rfl, hs⟩ := details_inj hfilters h
          exact ⟨rfl, fun hk => hs (Option.some.inj hk)⟩

/-- What is shown of a payload tells it, as far as it makes up characters. -/
theorem sample_of_shown {o p : Option (List UInt8)} {truncated : Bool}
    (h : (Atom.ofOption (.bytes · truncated) o).shown =
      (Atom.ofOption (.bytes · truncated) p).shown) : Option.Rel (SameSample truncated) o p := by
  cases o with
  | none =>
      cases p with
      | none => exact .none
      | some ds => exact absurd h.symm (present_bytes ds truncated)
  | some bs =>
      cases p with
      | none => exact absurd h (present_bytes bs truncated)
      | some ds => exact .some (sameSample_of_shown h)

end Line

open Line in
/-- **Records with the same verbose line agree** on all that a line is about. -/
theorem Record.agree_of_lineText_eq {r s : Record} (hr : r.time.IsMoment) (hs : s.time.IsMoment)
    (h : r.lineText .text true = s.lineText .text true) : r.Agree s := by
  have hf : (fields true r).map Field.shown = (fields true s).map Field.shown := by
    have h := congrArg read? h
    rw [read?_lineText, read?_lineText] at h
    exact Option.some.inj h
  simp only [fields_eq, List.map_append] at hf
  obtain ⟨hf, hclosing⟩ := List.append_inj' hf (by simp [closingFields])
  obtain ⟨hcommon, hdetails⟩ := List.append_inj hf (by simp [commonFields])
  have tells_qos := tells_number fun _ _ => QoS.code_inj
  simp [commonFields, tells_text.ofOption_inj, tells_code.ofOption_inj, tells_qos.ofOption_inj,
    String.toList_inj] at hcommon
  simp [closingFields, tells_text.ofOption_inj] at hclosing
  obtain ⟨htext, hkind, hdir, hclient, htopic, hfilters, hqos, hretain, hcode, hlength, hpayload,
    htruncated⟩ := hcommon
  have hfilters := filters_inj hfilters
  obtain ⟨hdetails, hsubs⟩ := details?_inj hfilters hdetails
  rw [← htruncated] at hpayload
  exact {
    time          := Instant.eq_of_text_eq hr hs htext
    kind          := PacketKind.name_inj hkind
    direction     := Direction.label_inj hdir
    client        := hclient
    topic         := htopic
    filters       := hfilters
    qos           := hqos
    retain        := hretain
    reasonCode    := hcode
    payloadLength := hlength
    truncated     := htruncated
    payload       := sample_of_shown hpayload
    reason        := hclosing.1
    properties    := properties_inj hclosing.2
    details       := hdetails
    subscriptions := hsubs }

/-- The beginning of a long message. -/
def Record.cutOff (byte : UInt8) (nanos : Nat) : Record where
  kind          := .publish
  code          := 3
  direction     := .inbound
  client        := "- kind=\""
  topic         := some "a"
  subscriptions := []
  qos           := some .atLeastOnce
  retain        := false
  payloadLength := 9
  payload       := some [0x61, byte]
  truncated     := true
  reasonCodes   := []
  reason        := none
  properties    := [("-", "hex:00")]
  details       := some (.publish {})
  time          := ⟨0, nanos⟩

theorem Record.agree_of_lineText_eq_cutOff :
    (Record.cutOff 0xC2 1000000).lineText .text true =
        (Record.cutOff 0xC3 1999999).lineText .text true ∧
      (Record.cutOff 0xC2 1000000).Agree (Record.cutOff 0xC3 1999999) := by
  have ht : (Line.fields true (Record.cutOff 0xC2 1000000)).map Line.Field.toText =
      (Line.fields true (Record.cutOff 0xC3 1999999)).map Line.Field.toText := by
    decide +kernel
  have h : (Record.cutOff 0xC2 1000000).lineText .text true =
      (Record.cutOff 0xC3 1999999).lineText .text true :=
    congrArg (fun texts => String.ofList ([' '].intercalate texts)) ht
  exact ⟨h, Record.agree_of_lineText_eq rfl rfl h⟩

end PacketLog
