import PacketLog.Intake
import PacketLog.Proofs.Filtering
import PacketLog.Proofs.Forms
import PacketLog.Proofs.Lossless
import PacketLog.Proofs.Verbosity

/-!
# Proofs — FilterOptions

What a verbose line tells of the options that come with the filters of a request.  They are fields
of the details, so a line shows them only where the event carries details of a SUBSCRIBE packet,
although the options come with the filters and not with the details.

* `Line.said_eq_of_written`: fields that are written alike say the same.
* `Record.lineText_eq_iff`: when records that differ in options only have the same verbose line.
* `Policy.options_told`: a verbose line tells all options of the filters that are admitted if the
  event carries the details, and none otherwise.
* `Policy.options_lost`: there are requests with different options that have the same line.
-/

namespace PacketLog

/-! ### Fields that are written alike -/

namespace Line

/-- Fields as they are written. -/
def written : LineFormat → List Field → List Char
  | .text => textForm
  | .json => jsonForm

theorem lineText_eq (format : LineFormat) (verbose : Bool) (r : Record) :
    r.lineText format verbose = String.ofList (written format (fields verbose r)) := by
  cases format with
  | text => rfl
  | json => exact r.lineText_json verbose

variable {format : LineFormat} {front fs gs : List Field}

/-- What is written after the same fields can be told from the whole. -/
theorem written_append_cancel (hp : front ≠ []) (hf : fs ≠ []) (hg : gs ≠ [])
    (h : written format (front ++ fs) = written format (front ++ gs)) :
    written format fs = written format gs := by
  cases format with
  | text =>
      simp only [written, textForm_append hp hf, textForm_append hp hg] at h
      exact (List.cons.inj (List.append_cancel_left h)).2
  | json =>
      simp only [written, jsonForm_append hp hf, jsonForm_append hp hg] at h
      have hm := List.append_cancel_right (List.cons.inj (List.append_cancel_left h)).2
      simp only [written, jsonForm_eq, hm]

/-- What a field says in either form. -/
def Field.said (f : Field) : String × Datum := (f.key, f.value.shown.toDatum)

/-- The field can be read in either form. -/
structure Field.Legible (f : Field) : Prop where
  text : f.Readable
  json : f.value.toJson.Readable (Json.nestingLimit - 1)

/-- **Fields that are written alike say the same.** -/
theorem said_eq_of_written (hf : fs ≠ []) (hg : gs ≠ []) (hfs : ∀ f ∈ fs, f.Legible)
    (hgs : ∀ g ∈ gs, g.Legible) (h : written format fs = written format gs) :
    fs.map Field.said = gs.map Field.said := by
  cases format with
  | text =>
      have h := congrArg (fun cs => read? (String.ofList cs)) h
      simp only [written, read?_textForm hf fun f h => (hfs f h).text,
        read?_textForm hg fun g h => (hgs g h).text] at h
      have h := congrArg (List.map fun m => (m.1, m.2.toDatum)) (Option.some.inj h)
      rwa [List.map_map, List.map_map] at h
  | json =>
      have h := congrArg (fun cs => Json.membersOf? (String.ofList cs)) h
      simp only [written, membersOf?_jsonForm fun f h => (hfs f h).json,
        membersOf?_jsonForm fun g h => (hgs g h).json] at h
      exact Option.some.inj h

/-- The fields of a record after those that every line has. -/
def laterFields (r : Record) : List Field :=
  (r.details.map (detailFields true r.subscriptions)).getD [] ++ closingFields true r

theorem fields_true_eq (r : Record) : fields true r = commonFields r ++ laterFields r := by
  rw [fields_eq, List.append_assoc, laterFields]

theorem laterFields_ne_nil (r : Record) : laterFields r ≠ [] := by
  simp [laterFields, closingFields]

theorem legible_laterFields (r : Record) : ∀ f ∈ laterFields r, f.Legible := by
  intro f hf
  have mem (s : Record) (hs : laterFields s = laterFields r) : f ∈ fields true s := by
    rw [fields_true_eq, hs]
    exact List.mem_append_right _ hf
  refine ⟨readable_fields true r f (mem r rfl), ?_⟩
  -- the length of the payload is not among these fields, and might as well be nothing
  let s : Record := { r with payloadLength := 0 }
  have hs : s.payloadLength < UInt64.size := Nat.zero_lt_succ _
  exact Value.readable_toJson hs (occurs_fields true s f (mem s rfl)) 124

/-! ### Options -/

/-- A truth value, a number, or the sign for what is absent. -/
inductive Token.Bare : Token → Prop where
  | absent : Bare .absent
  | flag (b : Bool) : Bare (.flag b)
  | number (n : Nat) : Bare (.number n)

/-- No such value is taken for another one in the data format. -/
theorem Token.Bare.eq_of_toDatum_eq {t u : Token} (ht : t.Bare) (hu : u.Bare)
    (h : t.toDatum = u.toDatum) : t = u := by
  cases ht with
  | absent => cases hu with
      | absent => rfl
      | _ => cases h
  | flag b => cases hu with
      | flag c => rw [Datum.flag.inj h]
      | _ => cases h
  | number n => cases hu with
      | number m => rw [Int.ofNat.inj (Datum.integer.inj h)]
      | _ => cases h

theorem bare_ofOption {f : SubscriptionOptions → Scalar} (hf : ∀ o, (f o).atom.shown.Bare)
    (o : Option SubscriptionOptions) : (Scalar.ofOption f o).atom.shown.Bare := by
  cases o with
  | none => exact .absent
  | some o => exact hf o

/-- Lists of such values with the same data show the same. -/
theorem shown_perFilter_eq {f : SubscriptionOptions → Scalar} (hf : ∀ o, (f o).atom.shown.Bare)
    {as bs : List Subscription}
    (h : (perFilter f as).value.shown.toDatum = (perFilter f bs).value.shown.toDatum) :
    (perFilter f as).value.shown = (perFilter f bs).value.shown := by
  replace h := Datum.array.inj h
  refine congrArg Shown.list ?_
  induction as generalizing bs with
  | nil =>
      cases bs with
      | nil => rfl
      | cons b bs => cases h
  | cons a as ih =>
      cases bs with
      | nil => cases h
      | cons b bs =>
          obtain ⟨ha, h⟩ := List.cons.inj h
          have ht := (bare_ofOption hf a.options).eq_of_toDatum_eq (bare_ofOption hf b.options) ha
          exact congrArg₂ List.cons (congrArg Item.single ht) (ih h)

end Line

namespace Record

variable {r s : Record} {format : LineFormat}

/-- The details are those of a SUBSCRIBE packet, which show the options of the filters. -/
def ShowsOptions (r : Record) : Prop := ∃ d, r.details = some (.subscribe d)

/-- No other details show options. -/
theorem laterFields_eq (hs : ¬r.ShowsOptions)
    (hrest : { r with subscriptions := s.subscriptions } = s) :
    Line.laterFields r = Line.laterFields s := by
  have hdetails : (r.details.map (Line.detailFields true r.subscriptions)).getD [] =
      (r.details.map (Line.detailFields true s.subscriptions)).getD [] := by
    cases hd : r.details with
    | none => rfl
    | some d =>
        cases d with
        | subscribe d => exact absurd ⟨d, hd⟩ hs
        | _ => rfl
  rw [← hrest]
  exact congrArg (· ++ Line.closingFields true r) hdetails

/-- Details of a SUBSCRIBE packet that are written alike have the same options. -/
theorem subscriptions_eq_of_laterFields (hs : r.ShowsOptions)
    (hfilters : r.subscriptions.map (fun u => (u.filter, u.qos)) =
      s.subscriptions.map fun u => (u.filter, u.qos))
    (hrest : { r with subscriptions := s.subscriptions } = s)
    (h : (Line.laterFields r).map Line.Field.said = (Line.laterFields s).map Line.Field.said) :
    r.subscriptions = s.subscriptions := by
  obtain ⟨d, hr⟩ := hs
  have hd : s.details = some (.subscribe d) :=
    hr ▸ (congrArg Record.details hrest.symm :)
  rw [Line.laterFields, Line.laterFields, hr, hd] at h
  -- the identifier of the subscription comes before the three lists of options
  obtain ⟨-, h⟩ := List.cons.inj h
  obtain ⟨hlocal, h⟩ := List.cons.inj h
  obtain ⟨hretain, h⟩ := List.cons.inj h
  obtain ⟨hhandling, -⟩ := List.cons.inj h
  exact Line.subscriptions_inj hfilters
    (Line.shown_perFilter_eq (f := (.flag ·.noLocal)) (fun _ => .flag _)
      (Prod.mk.inj hlocal).2)
    (Line.shown_perFilter_eq (f := (.flag ·.retainAsPublished)) (fun _ => .flag _)
      (Prod.mk.inj hretain).2)
    (Line.shown_perFilter_eq (f := (.number ·.retainHandling.toNat)) (fun _ => .number _)
      (Prod.mk.inj hhandling).2)

/-- **Records that differ in options only have the same verbose line** unless the details show
them. -/
theorem lineText_eq_iff
    (hfilters : r.subscriptions.map (fun u => (u.filter, u.qos)) =
      s.subscriptions.map fun u => (u.filter, u.qos))
    (hrest : { r with subscriptions := s.subscriptions } = s) :
    r.lineText format true = s.lineText format true ↔
      (r.ShowsOptions → r.subscriptions = s.subscriptions) := by
  have hcommon : Line.commonFields r = Line.commonFields s :=
    Line.commonFields_eq hfilters (by rw [← hrest])
  rw [Line.lineText_eq, Line.lineText_eq, Line.fields_true_eq, Line.fields_true_eq, hcommon]
  constructor
  · intro h hs
    have hw := Line.written_append_cancel (by simp [Line.commonFields])
      (Line.laterFields_ne_nil r) (Line.laterFields_ne_nil s) (String.ofList_injective h)
    exact subscriptions_eq_of_laterFields hs hfilters hrest
      (Line.said_eq_of_written (Line.laterFields_ne_nil r) (Line.laterFields_ne_nil s)
        (Line.legible_laterFields r) (Line.legible_laterFields s) hw)
  · intro h
    by_cases hs : r.ShowsOptions
    · have heq : r = s := by rw [← hrest, ← h hs]
      rw [heq]
    · rw [laterFields_eq hs hrest]

end Record

/-! ### Events -/

/-- The event carries the details of a SUBSCRIBE packet. -/
def Event.CarriesDetails (e : Event) : Prop := ∃ d, e.details = some (.subscribe d)

namespace Policy

variable {p : Policy} {e e₁ e₂ : Event} {l l₁ l₂ : LogLine}

/-- What is logged of an event if the policy admits it. -/
def logged (p : Policy) (e : Event) : Record :=
  p.redact { e.record with subscriptions := p.admitted e.record }

theorem lineOf_eq_some_iff : p.lineOf e.record = some l ↔
    p.Admits e.record ∧ l = (p.logged e).line p.format p.verbose := by
  unfold lineOf
  rw [Option.map_eq_some_iff]
  constructor
  · rintro ⟨k, hk, rfl⟩
    obtain ⟨ha, rfl⟩ := keep?_eq_some_iff.1 hk
    exact ⟨ha, rfl⟩
  · rintro ⟨ha, rfl⟩
    exact ⟨_, keep?_eq_some_iff.2 ⟨ha, rfl⟩, rfl⟩

/-- What is logged of a request keeps the details of a SUBSCRIBE packet. -/
theorem details_logged {d : SubscribeDetails} (hk : PacketKind.ofCode e.code = .subscribe)
    (h : e.details = some (.subscribe d)) : (p.logged e).details = some (.subscribe d) := by
  simp [logged, redact, Event.record, h, hk, Details.kind, redactDetails]

/-- Details of any other kind are not taken for its own. -/
theorem details_logged_eq_none (hk : PacketKind.ofCode e.code = .subscribe)
    (h : ¬e.CarriesDetails) : (p.logged e).details = none := by
  have hd : ∀ d ∈ e.details, d.kind ≠ .subscribe := by
    intro d hd hs
    cases d with
    | subscribe d => exact h ⟨d, hd⟩
    | _ => cases hs
  simpa [logged, redact, Event.record, hk] using hd

/-- What is logged of a request shows the options if the event carries the details. -/
theorem showsOptions_logged_iff (hk : PacketKind.ofCode e.code = .subscribe) :
    (p.logged e).ShowsOptions ↔ e.CarriesDetails := by
  by_cases h : e.CarriesDetails
  · obtain ⟨d, hd⟩ := h
    exact iff_of_true ⟨d, details_logged hk hd⟩ ⟨d, hd⟩
  · refine iff_of_false ?_ h
    rintro ⟨d, hd⟩
    rw [details_logged_eq_none hk h] at hd
    cases hd

/-- The filters that are shown, in terms of those that are requested. -/
theorem filters_logged (p : Policy) (e : Event) :
    (p.logged e).subscriptions.map (fun u => (u.filter, u.qos)) =
      ((e.requests.map fun q => (q.filter, q.qos)).filter (p.topics.allows ·.1)).map
        fun u => (maskText (p.redacts .topic) u.1, u.2.bind QoS.ofCode?) := by
  simp [logged, redact, admitted, Event.record, List.filter_map, Function.comp_def,
    Request.subscription]

/-- The options of the filters that are shown, in terms of those that are requested. -/
theorem options_logged (p : Policy) (e : Event) :
    (p.logged e).subscriptions.map Subscription.options =
      (e.requests.filter (p.topics.allows ·.filter)).map Request.options := by
  simp [logged, redact, admitted, Event.record, List.filter_map, Function.comp_def,
    Request.subscription]

/-- Requests for the same filters that are admitted with the same options. -/
theorem options_eq_of_admitted {admits : String → Bool} {qs rs : List Request}
    (hfilters : qs.map (fun q => (q.filter, q.qos)) = rs.map fun q => (q.filter, q.qos))
    (h : (qs.filter (admits ·.filter)).map Request.options =
      (rs.filter (admits ·.filter)).map Request.options) :
    ∀ q ∈ qs.zip rs, admits q.1.filter = true → q.1.options = q.2.options := by
  induction qs generalizing rs with
  | nil => simp
  | cons q qs ih =>
      cases rs with
      | nil => simp
      | cons r rs =>
          obtain ⟨hq, hfilters⟩ := List.cons.inj hfilters
          have hf : q.filter = r.filter := (Prod.mk.inj hq).1
          simp only [List.filter_cons, ← hf] at h
          rw [List.zip_cons_cons, List.forall_mem_cons]
          by_cases ha : admits q.filter = true
          · rw [if_pos ha, if_pos ha] at h
            obtain ⟨ho, h⟩ := List.cons.inj h
            exact ⟨fun _ => ho, ih hfilters h⟩
          · rw [if_neg ha, if_neg ha] at h
            exact ⟨fun h => absurd h ha, ih hfilters h⟩

/-- Two events are the same but for the options of their filters, and of a filter that the policy
admits the options are different. -/
structure OptionsDiffer (p : Policy) (e₁ e₂ : Event) : Prop where
  filters : e₁.requests.map (fun q => (q.filter, q.qos)) =
    e₂.requests.map fun q => (q.filter, q.qos)
  rest    : { e₁ with requests := e₂.requests } = e₂
  differ  : ∃ q ∈ e₁.requests.zip e₂.requests,
    p.topics.allows q.1.filter = true ∧ q.1.options ≠ q.2.options

namespace OptionsDiffer

theorem rest_logged (h : p.OptionsDiffer e₁ e₂) :
    { p.logged e₁ with subscriptions := (p.logged e₂).subscriptions } = p.logged e₂ := by
  rw [← h.rest]
  rfl

theorem subscriptions_ne (h : p.OptionsDiffer e₁ e₂) :
    (p.logged e₁).subscriptions ≠ (p.logged e₂).subscriptions := by
  intro hs
  have ho := congrArg (List.map Subscription.options) hs
  rw [options_logged, options_logged] at ho
  obtain ⟨q, hq, ha, hne⟩ := h.differ
  exact hne (options_eq_of_admitted h.filters ho q hq ha)

/-- What is logged of the two has different lines only where the details show the options. -/
theorem lineText_ne_iff (h : p.OptionsDiffer e₁ e₂) (format : LineFormat) :
    (p.logged e₁).lineText format true ≠ (p.logged e₂).lineText format true ↔
      (p.logged e₁).ShowsOptions := by
  have hfilters : (p.logged e₁).subscriptions.map (fun u => (u.filter, u.qos)) =
      (p.logged e₂).subscriptions.map fun u => (u.filter, u.qos) := by
    rw [filters_logged, filters_logged, h.filters]
  rw [Ne, Record.lineText_eq_iff hfilters h.rest_logged, Classical.not_imp]
  exact and_iff_left h.subscriptions_ne

end OptionsDiffer

/-- What the fields of a line say of the options of an event: for each filter that the policy
admits, in the order in which the filters are listed, every option, or that there are none. -/
structure ListsOptions (p : Policy) (e : Event) (fs : List Line.Field) : Prop where
  topics : ⟨"topics", .ofList .filters ((p.admitted e.record).map fun u =>
    (maskText (p.redacts .topic) u.filter, u.qos))⟩ ∈ fs
  noLocal : ⟨"no_local", .list ((p.admitted e.record).map fun u =>
    .ofOption (.flag ·.noLocal) u.options)⟩ ∈ fs
  retainAsPublished : ⟨"retain_as_published", .list ((p.admitted e.record).map fun u =>
    .ofOption (.flag ·.retainAsPublished) u.options)⟩ ∈ fs
  retainHandling : ⟨"retain_handling", .list ((p.admitted e.record).map fun u =>
    .ofOption (.number ·.retainHandling.toNat) u.options)⟩ ∈ fs

/-- The names of the fields that show options. -/
def optionKeys : List String := ["no_local", "retain_as_published", "retain_handling"]

/-- The line of an event is made of fields with a name each, which list all options of the filters
that are admitted if the event carries the details, and none otherwise. -/
structure OptionsTold (p : Policy) (e : Event) (l : LogLine) (fs : List Line.Field) : Prop where
  text   : l.text = String.ofList (Line.written p.format fs)
  names  : (fs.map Line.Field.key).Nodup
  listed : e.CarriesDetails → p.ListsOptions e fs
  lost   : ¬e.CarriesDetails → ∀ key ∈ optionKeys, key ∉ fs.map Line.Field.key

/-- Details of a SUBSCRIBE packet list the options. -/
theorem listsOptions_fields {d : SubscribeDetails}
    (h : (p.logged e).details = some (.subscribe d)) :
    p.ListsOptions e (Line.fields true (p.logged e)) := by
  have hsubs : (p.logged e).subscriptions = (p.admitted e.record).map fun u =>
      { u with filter := maskText (p.redacts .topic) u.filter } := rfl
  constructor
  all_goals simp [Line.fields_eq, h, hsubs, Line.commonFields, Line.detailFields, Line.detailsOf,
    Line.subscribeDetails, Function.comp_def]

/-- **What a verbose line tells of options.** -/
theorem exists_optionsTold (hv : p.verbose = true) (hk : PacketKind.ofCode e.code = .subscribe)
    (h : p.lineOf e.record = some l) : ∃ fs, p.OptionsTold e l fs := by
  refine ⟨Line.fields true (p.logged e), ?_, ?_, ?_, ?_⟩
  · rw [(lineOf_eq_some_iff.1 h).2, hv]
    exact Line.lineText_eq p.format true (p.logged e)
  · rw [Line.keys_fields]
    exact Line.nodup_keys true (p.logged e)
  · rintro ⟨d, hd⟩
    exact listsOptions_fields (details_logged hk hd)
  · intro hc
    rw [Line.keys_fields, Line.keys, details_logged_eq_none hk hc]
    decide

/-- **Verbose lines tell the options of filters only if the event carries the details.**  Requests
that differ in the options of a filter that is admitted then have different lines, in either form,
with an entry in each list of options for every filter that is listed.  Otherwise they have the
same line, in which there are no options. -/
theorem options_told (hv : p.verbose = true) (hk : PacketKind.ofCode e₁.code = .subscribe)
    (h : p.OptionsDiffer e₁ e₂) (h₁ : p.lineOf e₁.record = some l₁)
    (h₂ : p.lineOf e₂.record = some l₂) :
    (l₁.text ≠ l₂.text ↔ e₁.CarriesDetails) ∧
      (∃ fs, p.OptionsTold e₁ l₁ fs) ∧ ∃ fs, p.OptionsTold e₂ l₂ fs := by
  have hk₂ : PacketKind.ofCode e₂.code = .subscribe := by
    rw [← h.rest]
    exact hk
  refine ⟨?_, exists_optionsTold hv hk h₁, exists_optionsTold hv hk₂ h₂⟩
  rw [(lineOf_eq_some_iff.1 h₁).2, (lineOf_eq_some_iff.1 h₂).2, hv, ← showsOptions_logged_iff hk]
  exact h.lineText_ne_iff p.format

end Policy

/-- A request for two filters, the second of which comes with options. -/
def Event.requesting (noLocal : Bool) (details : Option Details) : Event where
  code      := 8
  direction := .inbound
  client    := "c"
  requests  := [
    { filter := "a/b" },
    { filter := "c", qos := some 1, options := some { noLocal } }]
  details   := details
  time      := ⟨0, 0⟩

namespace Policy

/-- A policy that writes verbose lines and denies one topic. -/
def talkative : Policy := ofSettings 1 {
  verbose := true
  topics  := { rules := [⟨⟨"a/b", [.name ['a'], .name ['b']]⟩, .deny⟩] } }

theorem optionsDiffer_requesting (details : Option Details) :
    talkative.OptionsDiffer (.requesting true details) (.requesting false details) where
  filters := rfl
  rest := rfl
  differ := by
    refine ⟨_, List.mem_cons_of_mem _ List.mem_cons_self, ?_, ?_⟩
    · decide
    · decide

theorem lineOf_requesting (noLocal : Bool) (details : Option Details) :
    talkative.lineOf (Event.requesting noLocal details).record =
      some ((talkative.logged (.requesting noLocal details)).line .text true) := by
  have ha : talkative.topics.Judges "c" .allow := Topic.Rules.allows_iff.1 (by decide)
  refine lineOf_eq_some_iff.2 ⟨⟨rfl, rfl, nofun, .inr ?_⟩, rfl⟩
  exact ⟨_, List.mem_cons_of_mem _ List.mem_cons_self, ha⟩

theorem options_told_requesting :
    let e₁ := Event.requesting true (some (.subscribe {}))
    let e₂ := Event.requesting false (some (.subscribe {}))
    talkative.verbose = true ∧ PacketKind.ofCode e₁.code = .subscribe ∧
      talkative.OptionsDiffer e₁ e₂ ∧ ∃ l₁ l₂, talkative.lineOf e₁.record = some l₁ ∧
        talkative.lineOf e₂.record = some l₂ ∧ l₁.text ≠ l₂.text := by
  intro e₁ e₂
  have h : talkative.OptionsDiffer e₁ e₂ := optionsDiffer_requesting _
  have h₁ := lineOf_requesting true (some (.subscribe {}))
  have h₂ := lineOf_requesting false (some (.subscribe {}))
  have hc : e₁.CarriesDetails := ⟨{}, rfl⟩
  exact ⟨rfl, rfl, h, _, _, h₁, h₂, (options_told rfl rfl h h₁ h₂).1.2 hc⟩

/-- **Options are lost** where the event carries no details: requests with different options, which
the policy admits, have the same verbose line. -/
theorem options_lost :
    let e₁ := Event.requesting true none
    let e₂ := Event.requesting false none
    talkative.verbose = true ∧ PacketKind.ofCode e₁.code = .subscribe ∧ e₁.details = none ∧
      talkative.OptionsDiffer e₁ e₂ ∧ ∃ l₁ l₂, talkative.lineOf e₁.record = some l₁ ∧
        talkative.lineOf e₂.record = some l₂ ∧ l₁.text = l₂.text := by
  intro e₁ e₂
  have h : talkative.OptionsDiffer e₁ e₂ := optionsDiffer_requesting _
  have hs : ¬(talkative.logged e₁).ShowsOptions := by
    rw [showsOptions_logged_iff rfl]
    exact nofun
  have ht := mt (h.lineText_ne_iff .text).1 hs
  exact ⟨rfl, rfl, rfl, h, _, _, lineOf_requesting true none, lineOf_requesting false none,
    not_not.1 ht⟩

end Policy

end PacketLog
