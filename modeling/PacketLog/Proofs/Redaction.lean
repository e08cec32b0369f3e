import Mathlib.Data.List.Forall2
import PacketLog.Intake

/-!
# Proofs — Redaction

What a policy withholds cannot be told from the log.  Two events that differ only in what a policy
withholds are handled alike: the same becomes of them, and the same line is written.

* `Policy.Alike`: two events differ only in what a policy withholds.
* `Policy.Alike.keep?_eq`: what is kept of alike events is the same record.
* `Intake.accept_alike`: an intake goes on in the same way after either of two alike events.
-/

namespace PacketLog

/-- The two are equal, or they may differ and are related by `R`. -/
def SameUnless {α : Type} (hide : Bool) (R : α → α → Prop) (a b : α) : Prop :=
  a = b ∨ (hide = true ∧ R a b)

namespace Policy

variable (p : Policy)

/-! ### Alike events -/

/-- The rules give the same verdict on both topics. -/
def SameVerdict (t₁ t₂ : String) : Prop := p.topics.judge t₁ = p.topics.judge t₂

/-- Two requests differ at most in the contents of a filter the policy withholds. -/
structure AlikeRequests (q₁ q₂ : Request) : Prop where
  filter : SameUnless (p.redacts .topic) p.SameVerdict q₁.filter q₂.filter
  rest   : { q₁ with filter := q₂.filter } = q₂

/-- Two wills differ at most in a topic the policy withholds.  No rule is asked about it. -/
structure AlikeWills (w₁ w₂ : Will) : Prop where
  topic : SameUnless (p.redacts .topic) (fun _ _ => True) w₁.topic w₂.topic
  rest  : { w₁ with topic := w₂.topic } = w₂

/-- The details are of one kind and differ at most in what the policy withholds. -/
inductive AlikeDetails : Details → Details → Prop where
  | connect {d₁ d₂ : ConnectDetails} (will : Option.Rel p.AlikeWills d₁.will d₂.will)
      (rest : { d₁ with will := d₂.will } = d₂) :
      AlikeDetails (.connect d₁) (.connect d₂)
  | connack {d₁ d₂ : ConnackDetails}
      (client : SameUnless (p.redacts .clientId) (Option.Rel fun _ _ => True)
        d₁.assignedClient d₂.assignedClient)
      (rest : { d₁ with assignedClient := d₂.assignedClient } = d₂) :
      AlikeDetails (.connack d₁) (.connack d₂)
  | publish {d₁ d₂ : PublishDetails}
      (topic : SameUnless (p.redacts .topic) (Option.Rel fun _ _ => True)
        d₁.responseTopic d₂.responseTopic)
      (data : SameUnless p.hidesPayload (fun _ _ => True) d₁.correlationData d₂.correlationData)
      (rest : { d₁ with
        responseTopic := d₂.responseTopic, correlationData := d₂.correlationData } = d₂) :
      AlikeDetails (.publish d₁) (.publish d₂)
  | subscribe (d : SubscribeDetails) : AlikeDetails (.subscribe d) (.subscribe d)
  | disconnect (d : DisconnectDetails) : AlikeDetails (.disconnect d) (.disconnect d)

/-- The two events differ only in what the policy withholds.  Of a topic and of a filter the policy
withholds the contents but not the verdict, of a payload the bytes but not their number. -/
structure Alike (e₁ e₂ : Event) : Prop where
  client     : SameUnless (p.redacts .clientId) (fun _ _ => True) e₁.client e₂.client
  topic      : SameUnless (p.redacts .topic) (Option.Rel p.SameVerdict) e₁.topic e₂.topic
  requests   : List.Forall₂ p.AlikeRequests e₁.requests e₂.requests
  payload    : SameUnless p.hidesPayload
    (fun b₁ b₂ => (b₁.map List.length).getD 0 = (b₂.map List.length).getD 0) e₁.payload e₂.payload
  reason     : SameUnless (p.redacts .reasonString) (Option.Rel fun _ _ => True) e₁.reason e₂.reason
  properties : SameUnless (p.redacts .userProperties) (fun _ _ => True) e₁.properties e₂.properties
  details    : Option.Rel p.AlikeDetails e₁.details e₂.details
  rest       : { e₁ with
    client := e₂.client, topic := e₂.topic, requests := e₂.requests, payload := e₂.payload
    reason := e₂.reason, properties := e₂.properties, details := e₂.details } = e₂

/-! ### What is withheld is the same -/

section Mask

variable {p} {hide : Bool}

theorem maskText_eq {R : String → String → Prop} {a b : String} (h : SameUnless hide R a b) :
    maskText hide a = maskText hide b := by
  rcases h with rfl | ⟨rfl, -⟩
  · rfl
  · rfl

theorem mask_eq {R : String → String → Prop} {a b : Option String}
    (h : SameUnless hide (Option.Rel R) a b) : mask hide a = mask hide b := by
  rcases h with rfl | ⟨rfl, h⟩
  · rfl
  · cases h <;> rfl

theorem allows_eq {t₁ t₂ : String} (h : SameUnless hide p.SameVerdict t₁ t₂) :
    p.topics.allows t₁ = p.topics.allows t₂ := by
  rcases h with rfl | ⟨-, h⟩
  · rfl
  · rw [Topic.Rules.allows, Topic.Rules.allows, h]

theorem redactWill_eq {w₁ w₂ : Option Will} (h : Option.Rel p.AlikeWills w₁ w₂) :
    (w₁.map fun w => { w with topic := maskText (p.redacts .topic) w.topic }) =
      w₂.map fun w => { w with topic := maskText (p.redacts .topic) w.topic } := by
  cases h with
  | none => rfl
  | @some w₁ w₂ h =>
      obtain ⟨ht, hr⟩ := h
      rw [← hr]
      simp only [Option.map_some, maskText_eq ht]

theorem redactDetails_eq {d₁ d₂ : Details} (h : p.AlikeDetails d₁ d₂) :
    p.redactDetails d₁ = p.redactDetails d₂ := by
  cases h with
  | connect will rest =>
      rw [← rest]
      simp only [redactDetails, redactWill_eq will]
  | connack client rest =>
      rw [← rest]
      simp only [redactDetails, mask_eq client]
  | @publish d₁ d₂ topic data rest =>
      have hd : (if p.hidesPayload then none else d₁.correlationData) =
          if p.hidesPayload then none else d₂.correlationData := by
        rcases data with h | ⟨h, -⟩
        · rw [h]
        · rw [if_pos h, if_pos h]
      rw [← rest]
      simp only [redactDetails, mask_eq topic, hd]
  | subscribe d => rfl
  | disconnect d => rfl

theorem kind_eq {d₁ d₂ : Details} (h : p.AlikeDetails d₁ d₂) : d₁.kind = d₂.kind := by
  cases h <;> rfl

/-- Of alike filters the same are admitted, and they look the same. -/
theorem admitted_eq {qs₁ qs₂ : List Request} (h : List.Forall₂ p.AlikeRequests qs₁ qs₂) :
    ((qs₁.map Request.subscription).filter fun s => p.topics.allows s.filter).map
        (fun s => { s with filter := maskText (p.redacts .topic) s.filter }) =
      ((qs₂.map Request.subscription).filter fun s => p.topics.allows s.filter).map
        fun s => { s with filter := maskText (p.redacts .topic) s.filter } := by
  induction h with
  | nil => rfl
  | @cons q₁ q₂ qs₁ qs₂ h _ ih =>
      obtain ⟨hf, hr⟩ := h
      have ha : p.topics.allows q₁.subscription.filter = p.topics.allows q₂.subscription.filter :=
        allows_eq hf
      have hm : { q₁.subscription with
          filter := maskText (p.redacts .topic) q₁.subscription.filter } =
            { q₂.subscription with
              filter := maskText (p.redacts .topic) q₂.subscription.filter } := by
        rw [← hr]
        simp only [Request.subscription, maskText_eq hf]
      simp only [List.map_cons, List.filter_cons, ha]
      split
      · simp only [List.map_cons, hm, ih]
      · exact ih

end Mask

/-! ### Alike events are kept alike -/

namespace Alike

variable {p} {e₁ e₂ : Event}

theorem code (h : p.Alike e₁ e₂) : e₁.code = e₂.code := (congrArg Event.code h.rest :)

theorem direction (h : p.Alike e₁ e₂) : e₁.direction = e₂.direction :=
  (congrArg Event.direction h.rest :)

theorem allowsTopic (h : p.Alike e₁ e₂) : p.allowsTopic e₁.record = p.allowsTopic e₂.record := by
  have ht : SameUnless (p.redacts .topic) (Option.Rel p.SameVerdict) e₁.record.topic
    e₂.record.topic := h.topic
  unfold Policy.allowsTopic
  generalize e₁.record.topic = t₁ at ht ⊢
  generalize e₂.record.topic = t₂ at ht ⊢
  rcases ht with ht | ⟨-, ht⟩
  · rw [ht]
  · cases ht with
    | none => rfl
    | some ht => exact congrArg (decide <| · = Topic.Verdict.allow) ht

theorem isEmpty_subscriptions (h : p.Alike e₁ e₂) :
    e₁.record.subscriptions.isEmpty = e₂.record.subscriptions.isEmpty := by
  have hl := h.requests.length_eq
  rw [Bool.eq_iff_iff, List.isEmpty_iff_length_eq_zero, List.isEmpty_iff_length_eq_zero]
  simp only [Event.record, List.length_map, hl]

theorem isEmpty_admitted (h : p.Alike e₁ e₂) :
    (p.admitted e₁.record).isEmpty = (p.admitted e₂.record).isEmpty := by
  have he := congrArg List.isEmpty (admitted_eq h.requests)
  rwa [List.isEmpty_map, List.isEmpty_map] at he

/-- No more of a payload than its length is seen. -/
theorem payload_eq (h : p.Alike e₁ e₂) :
    e₁.record.payloadLength = e₂.record.payloadLength ∧
      (if p.hidesPayload then none else e₁.record.payload.map (List.take p.payloadLimit)) =
        (if p.hidesPayload then none else e₂.record.payload.map (List.take p.payloadLimit)) ∧
      (if p.hidesPayload then false
        else e₁.record.truncated ||
          (e₁.record.payload.map fun b => decide (p.payloadLimit < b.length)).getD false) =
        if p.hidesPayload then false
        else e₂.record.truncated ||
          (e₂.record.payload.map fun b => decide (p.payloadLimit < b.length)).getD false := by
  unfold Event.record
  rcases h.payload with hp | ⟨hh, hp⟩
  · simp only [hp, and_self]
  · simp only [hp, hh, if_true, and_self]

theorem details_eq (h : p.Alike e₁ e₂) :
    e₁.record.details.map p.redactDetails = e₂.record.details.map p.redactDetails := by
  have hd : Option.Rel p.AlikeDetails e₁.details e₂.details := h.details
  simp only [Event.record, h.code]
  generalize e₁.details = d₁ at hd ⊢
  generalize e₂.details = d₂ at hd ⊢
  cases hd with
  | none => rfl
  | some hd =>
      simp only [Option.filter_some, kind_eq hd]
      split
      · simp only [Option.map_some, redactDetails_eq hd]
      · rfl

theorem properties_eq (h : p.Alike e₁ e₂) :
    (if p.redacts .userProperties then [] else e₁.properties) =
      if p.redacts .userProperties then [] else e₂.properties := by
  rcases h.properties with hp | ⟨hh, -⟩
  · rw [hp]
  · rw [if_pos hh, if_pos hh]

/-- **The records of alike events look the same.** -/
theorem redact_eq (h : p.Alike e₁ e₂) :
    p.redact { e₁.record with subscriptions := p.admitted e₁.record } =
      p.redact { e₂.record with subscriptions := p.admitted e₂.record } := by
  obtain ⟨hl, hp, ht⟩ := h.payload_eq
  have hq : e₁.qos = e₂.qos := (congrArg Event.qos h.rest :)
  simp only [redact, Record.mk.injEq]
  exact ⟨congrArg PacketKind.ofCode h.code, h.code, h.direction, maskText_eq h.client,
    mask_eq h.topic, admitted_eq h.requests, congrArg (·.bind QoS.ofCode?) hq,
    (congrArg Event.retain h.rest :), hl, hp, ht, (congrArg Event.reasonCodes h.rest :),
    mask_eq h.reason, h.properties_eq, h.details_eq, (congrArg Event.time h.rest :)⟩

theorem rejects_eq (h : p.Alike e₁ e₂) :
    p.rejects (.ofCode e₁.code) e₁.direction = p.rejects (.ofCode e₂.code) e₂.direction := by
  rw [h.code, h.direction]

/-- **Of alike events the same is kept.** -/
theorem keep?_eq (h : p.Alike e₁ e₂) : p.keep? e₁.record = p.keep? e₂.record := by
  have hr : p.rejects e₁.record.kind e₁.record.direction =
      p.rejects e₂.record.kind e₂.record.direction := h.rejects_eq
  unfold keep?
  rw [hr, h.allowsTopic, h.isEmpty_subscriptions, h.isEmpty_admitted, h.redact_eq]

end Alike

end Policy

/-- **What a policy withholds cannot be told from the log.**  Alike events have the same line,
whatever its format, and an intake goes on in the same way after either of them: the same becomes
of them, and the queue and the counters are the same. -/
theorem Intake.accept_alike {i : Intake} {e₁ e₂ : Event} (h : i.store.current.Alike e₁ e₂) :
    i.store.current.lineOf e₁.record = i.store.current.lineOf e₂.record ∧
      i.accept e₁ = i.accept e₂ := by
  have hl : i.store.current.lineOf e₁.record = i.store.current.lineOf e₂.record :=
    congrArg (Option.map _) h.keep?_eq
  refine ⟨hl, ?_⟩
  unfold Intake.accept Spool.accept
  rw [h.rejects_eq, hl]

/-- Two messages of which everything is withheld. -/
theorem Intake.accept_alike_publish :
    ∃ (i : Intake) (e₁ e₂ : Event),
      e₁ ≠ e₂ ∧ (i.accept e₁).1 = .queued ∧ i.accept e₁ = i.accept e₂ := by
  let i : Intake := ⟨.new { redacts := fun _ => true }, { queue := .new 4 }⟩
  let message (client topic reply : String) (payload : List UInt8) : Event := {
    code       := 3
    direction  := .inbound
    client     := client
    topic      := some topic
    payload    := some payload
    properties := [(client, topic)]
    details    := some (.publish { responseTopic := some reply, correlationData := some payload })
    time       := ⟨0, 0⟩ }
  have h : i.store.current.Alike (message "c1" "a/b" "r/1" [1]) (message "c2" "x" "r/2" [2]) := {
    client     := .inr ⟨rfl, trivial⟩
    topic      := .inr ⟨rfl, .some rfl⟩
    requests   := .nil
    payload    := .inr ⟨rfl, rfl⟩
    reason     := .inl rfl
    properties := .inr ⟨rfl, trivial⟩
    details    := .some (.publish (.inr ⟨rfl, .some trivial⟩) (.inr ⟨rfl, trivial⟩) rfl)
    rest       := rfl }
  exact ⟨i, _, _, by simp [message], rfl, (accept_alike h).2⟩

end PacketLog
