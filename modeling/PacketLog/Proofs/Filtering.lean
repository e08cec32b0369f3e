import Mathlib.Data.List.Forall2
import PacketLog.Policy

/-!
# Proofs — Filtering

Which records a policy keeps, and what it leaves of them.

* `Topic.Rules.judges_iff`: the verdict on a topic is that of the first rule that selects it.
* `Policy.keep?_eq_some_iff`: which records are kept, and as what.
* `Policy.keeps_redact`: what is neither cut nor withheld stays as it is.
* `Policy.filtering_exact`: all there is to say about the decision and what it leaves alone.
-/

namespace PacketLog

open Topic (Rules Rule Verdict)

/-! ### Verdicts -/

section Verdicts

/-- The verdict on a topic is that of the first rule that selects it, or the default if there is
none. -/
inductive Topic.Rules.Judges (rs : Rules) (topic : String) : Verdict → Prop where
  | rule {before after : List Rule} {r : Rule} (h : rs.rules = before ++ r :: after)
      (hr : r.pattern.selects topic = true) (hb : ∀ q ∈ before, q.pattern.selects topic = false) :
      Judges rs topic r.verdict
  | fallback (h : ∀ q ∈ rs.rules, q.pattern.selects topic = false) : Judges rs topic rs.fallback

theorem Topic.Rules.judges_iff {rs : Rules} {topic : String} {v : Verdict} :
    rs.Judges topic v ↔ rs.judge topic = v := by
  unfold judge
  constructor
  · intro h
    cases h with
    | @rule before after r h hr hb =>
        have hfind : rs.rules.find? (·.pattern.selects topic) = some r := by
          refine List.find?_eq_some_iff_append.2 ⟨hr, before, after, h, fun q hq => ?_⟩
          rw [hb q hq]
          rfl
        rw [hfind]
    | fallback h =>
        have hfind : rs.rules.find? (·.pattern.selects topic) = none :=
          List.find?_eq_none.2 fun q hq => Bool.eq_false_iff.1 (h q hq)
        rw [hfind]
  · rintro rfl
    cases hfind : rs.rules.find? (·.pattern.selects topic) with
    | none => exact .fallback fun q hq => Bool.eq_false_iff.2 (List.find?_eq_none.1 hfind q hq)
    | some r =>
        obtain ⟨hr, before, after, h, hb⟩ := List.find?_eq_some_iff_append.1 hfind
        exact .rule h hr fun q hq => by simpa using hb q hq

theorem Topic.Rules.allows_iff {rs : Rules} {topic : String} :
    rs.allows topic = true ↔ rs.Judges topic .allow := by
  rw [judges_iff, allows, decide_eq_true_iff]

end Verdicts

namespace Policy

variable {p : Policy} {r k : Record}

/-! ### The decision -/

section Decision

/-- The policy admits the record: the log is on, the kind is on in its direction, the topic is
allowed, if there is one, and of the filters one at least, if there are any. -/
structure Admits (p : Policy) (r : Record) : Prop where
  enabled : p.enabled = true
  kind    : p.kinds.allows r.kind r.direction = true
  topic   : ∀ t, r.topic = some t → p.topics.Judges t .allow
  filters : r.subscriptions = [] ∨ ∃ s ∈ r.subscriptions, p.topics.Judges s.filter .allow

theorem rejects_eq_false_iff {kind : PacketKind} {dir : Direction} :
    p.rejects kind dir = false ↔ p.enabled = true ∧ p.kinds.allows kind dir = true := by
  simp [rejects]

theorem allowsTopic_iff :
    p.allowsTopic r = true ↔ ∀ t, r.topic = some t → p.topics.Judges t .allow := by
  unfold allowsTopic
  cases r.topic with
  | none => simp
  | some t => simp [Topic.Rules.allows_iff]

theorem admitted_eq_nil_iff :
    p.admitted r = [] ↔ ∀ s ∈ r.subscriptions, ¬p.topics.Judges s.filter .allow := by
  simp only [admitted, List.filter_eq_nil_iff, Topic.Rules.allows_iff]

/-- Filters stand in the way of a record only if they are all denied. -/
theorem filters_iff : (!r.subscriptions.isEmpty && (p.admitted r).isEmpty) = false ↔
    r.subscriptions = [] ∨ ∃ s ∈ r.subscriptions, p.topics.Judges s.filter .allow := by
  have hadmitted : (p.admitted r).isEmpty = false ↔
      ∃ s ∈ r.subscriptions, p.topics.Judges s.filter .allow := by
    rw [List.isEmpty_eq_false_iff, Ne, admitted_eq_nil_iff]
    simp only [not_forall, not_not, exists_prop]
  rw [Bool.and_eq_false_iff, hadmitted, Bool.not_eq_false', List.isEmpty_iff]

theorem admits_iff : p.Admits r ↔ p.rejects r.kind r.direction = false ∧ p.allowsTopic r = true ∧
    (!r.subscriptions.isEmpty && (p.admitted r).isEmpty) = false := by
  rw [rejects_eq_false_iff, allowsTopic_iff, filters_iff]
  constructor
  · rintro ⟨henabled, hkind, htopic, hfilters⟩
    exact ⟨⟨henabled, hkind⟩, htopic, hfilters⟩
  · rintro ⟨⟨henabled, hkind⟩, htopic, hfilters⟩
    exact ⟨henabled, hkind, htopic, hfilters⟩

/-- **The records a policy admits are kept, and no others.** -/
theorem keep?_eq_some_iff :
    p.keep? r = some k ↔ p.Admits r ∧ k = p.redact { r with subscriptions := p.admitted r } := by
  rw [admits_iff, keep?]
  -- the three conditions, in the order in which they are tested
  cases p.rejects r.kind r.direction with
  | true => simp
  | false =>
      cases p.allowsTopic r with
      | false => simp
      | true =>
          cases !r.subscriptions.isEmpty && (p.admitted r).isEmpty with
          | true => simp
          | false => simp [eq_comm]

end Decision

/-! ### What is left of a record -/

section Frame

/-- The two are equal, unless one has been withheld. -/
def EqUnless {α : Type} (hide : Bool) (a b : α) : Prop := hide = false → a = b

theorem maskText_eqUnless (hide : Bool) (t : String) : EqUnless hide (maskText hide t) t := by
  rintro rfl
  rfl

theorem mask_eqUnless (hide : Bool) (t : Option String) : EqUnless hide (mask hide t) t := by
  rintro rfl
  rfl

theorem ite_eqUnless {α : Type} (hide : Bool) (a b : α) :
    EqUnless hide (if hide then a else b) b := by
  rintro rfl
  rfl

/-- Of a filter nothing but its contents is withheld. -/
structure KeepsSubscription (p : Policy) (s t : Subscription) : Prop where
  filter : EqUnless (p.redacts .topic) t.filter s.filter
  rest   : { t with filter := s.filter } = s

/-- Of a will nothing but its topic is withheld. -/
structure KeepsWill (p : Policy) (w v : Will) : Prop where
  topic : EqUnless (p.redacts .topic) v.topic w.topic
  rest  : { v with topic := w.topic } = w

/-- The details are of the same kind, and nothing is withheld but topics, the identifier of the
client and data that come with a payload. -/
inductive KeepsDetails (p : Policy) : Details → Details → Prop where
  | connect {d e : ConnectDetails} (will : Option.Rel p.KeepsWill d.will e.will)
      (rest : { e with will := d.will } = d) : KeepsDetails p (.connect d) (.connect e)
  | connack {d e : ConnackDetails}
      (client : EqUnless (p.redacts .clientId) e.assignedClient d.assignedClient)
      (rest : { e with assignedClient := d.assignedClient } = d) :
      KeepsDetails p (.connack d) (.connack e)
  | publish {d e : PublishDetails}
      (topic : EqUnless (p.redacts .topic) e.responseTopic d.responseTopic)
      (data : EqUnless p.hidesPayload e.correlationData d.correlationData)
      (rest : { e with
        responseTopic := d.responseTopic, correlationData := d.correlationData } = d) :
      KeepsDetails p (.publish d) (.publish e)
  | subscribe (d : SubscribeDetails) : KeepsDetails p (.subscribe d) (.subscribe d)
  | disconnect (d : DisconnectDetails) : KeepsDetails p (.disconnect d) (.disconnect d)

/-- What the policy leaves of a record: all but what it cuts or withholds. -/
structure Keeps (p : Policy) (r k : Record) : Prop where
  client : EqUnless (p.redacts .clientId) k.client r.client
  topic  : EqUnless (p.redacts .topic) k.topic r.topic
  /-- The filters that are allowed, in their order, each with what comes with it. -/
  subscriptions : List.Forall₂ p.KeepsSubscription
    (r.subscriptions.filter fun s => p.topics.judge s.filter = .allow) k.subscriptions
  /-- A payload that is not longer than the limit is not cut. -/
  payload : (∀ b, r.payload = some b → b.length ≤ p.payloadLimit) →
    EqUnless p.hidesPayload (k.payload, k.truncated) (r.payload, r.truncated)
  reason     : EqUnless (p.redacts .reasonString) k.reason r.reason
  properties : EqUnless (p.redacts .userProperties) k.properties r.properties
  details    : Option.Rel p.KeepsDetails r.details k.details
  /-- Nothing else can be withheld. -/
  rest : { k with
    client := r.client, topic := r.topic, subscriptions := r.subscriptions, payload := r.payload
    truncated := r.truncated, reason := r.reason, properties := r.properties
    details := r.details } = r

theorem keepsWill_mask (w : Option Will) : Option.Rel p.KeepsWill w
    (w.map fun w => { w with topic := maskText (p.redacts .topic) w.topic }) := by
  cases w with
  | none => exact .none
  | some w => exact .some ⟨maskText_eqUnless _ _, rfl⟩

theorem keepsDetails_redactDetails (d : Details) : p.KeepsDetails d (p.redactDetails d) := by
  cases d with
  | connect d => exact .connect (keepsWill_mask d.will) rfl
  | connack d => exact .connack (mask_eqUnless _ _) rfl
  | publish d => exact .publish (mask_eqUnless _ _) (ite_eqUnless _ _ _) rfl
  | subscribe d => exact .subscribe d
  | disconnect d => exact .disconnect d

/-- **What is neither cut nor withheld stays as it is.** -/
theorem keeps_redact (p : Policy) (r : Record) :
    p.Keeps r (p.redact { r with subscriptions := p.admitted r }) where
  client := maskText_eqUnless _ _
  topic := mask_eqUnless _ _
  subscriptions :=
    List.forall₂_map_right_iff.2 (List.forall₂_same.2 fun _ _ => ⟨maskText_eqUnless _ _, rfl⟩)
  payload := by
    intro hlimit hshown
    simp only [redact, hshown, Bool.false_eq_true, if_false]
    cases hp : r.payload with
    | none => simp only [Option.map_none, Option.getD_none, Bool.or_false]
    | some b =>
        have hb : b.length ≤ p.payloadLimit := hlimit b hp
        have ht : decide (p.payloadLimit < b.length) = false := decide_eq_false (Nat.not_lt.2 hb)
        simp only [Option.map_some, List.take_of_length_le hb, Option.getD_some, ht, Bool.or_false]
  reason := mask_eqUnless _ _
  properties := ite_eqUnless _ _ _
  details := by
    change Option.Rel p.KeepsDetails r.details (r.details.map p.redactDetails)
    cases r.details with
    | none => exact .none
    | some d => exact .some (keepsDetails_redactDetails d)
  rest := rfl

end Frame

/-! ### The law of filtering -/

section Filtering

/-- All there is to say about the decision on a record, and what it leaves alone. -/
structure Exact (p : Policy) (r : Record) : Prop where
  /-- Topics and filters are judged by the first rule that selects them. -/
  judged : ∀ topic v, p.topics.judge topic = v ↔ p.topics.Judges topic v
  /-- The record is kept if the policy admits it as it is, and only then. -/
  decided : (∃ k, p.keep? r = some k) ↔ p.Admits r
  /-- What is withheld or cut of records, and how they are written down, does not matter to the
  decision. -/
  independent : ∀ q : Policy, q.enabled = p.enabled → q.kinds = p.kinds → q.topics = p.topics →
    ((∃ k, q.keep? r = some k) ↔ ∃ k, p.keep? r = some k)
  /-- What is neither cut nor withheld stays as it is. -/
  kept : ∀ k, p.keep? r = some k → p.Keeps r k

theorem exists_keep?_iff : (∃ k, p.keep? r = some k) ↔ p.Admits r :=
  ⟨fun ⟨_, h⟩ => (keep?_eq_some_iff.1 h).1, fun h => ⟨_, keep?_eq_some_iff.2 ⟨h, rfl⟩⟩⟩

/-- **A policy keeps the records it admits**, and of a record all that it does not withhold. -/
theorem filtering_exact (p : Policy) (r : Record) : p.Exact r where
  judged _ _ := Topic.Rules.judges_iff.symm
  decided := exists_keep?_iff
  independent q henabled hkinds htopics := by
    have hadmits : q.Admits r ↔ p.Admits r := by
      constructor
      · rintro ⟨he, hk, ht, hf⟩
        exact ⟨henabled ▸ he, hkinds ▸ hk, htopics ▸ ht, htopics ▸ hf⟩
      · rintro ⟨he, hk, ht, hf⟩
        exact ⟨henabled ▸ he, hkinds ▸ hk, htopics ▸ ht, htopics ▸ hf⟩
    rw [exists_keep?_iff, exists_keep?_iff, hadmits]
  kept k h := by
    rw [(keep?_eq_some_iff.1 h).2]
    exact keeps_redact p r

end Filtering

end Policy

end PacketLog
