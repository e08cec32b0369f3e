import PacketLog.Proofs.Filtering

/-!
# Proofs — Capture

What is left of a payload.  It is cut twice: when its event is classified, and again to the limit
of the policy.

* `Policy.sample_of_keep?`: the two cuts are one at the lower limit, which is flagged if there were
  bytes above it.
* `Policy.hidden_of_keep?`: of a payload that is not shown nothing is left but its length.
* `Policy.cut_once`: both, for the policy of any configuration.
-/

namespace PacketLog

/-- The length of the whole payload, which is zero where there is none. -/
def Event.payloadLength (e : Event) : Nat := (e.payload.map List.length).getD 0

namespace Policy

variable {p : Policy} {e : Event} {k : Record}

/-- The most bytes of a payload that are left by both cuts. -/
def sampleLimit (p : Policy) : Nat := min p.payloadLimit captureLimit

theorem sampleLimit_ofSettings (version : UInt64) (s : Config.PolicySettings) :
    (ofSettings version s).sampleLimit = min s.payload.maxBytes captureLimit := by
  simp [sampleLimit, ofSettings]

theorem hidesPayload_eq_false_iff :
    p.hidesPayload = false ↔ p.showsPayload = true ∧ p.redacts .payload = false := by
  simp [hidesPayload]

/-- Bytes are missing after two cuts if there were more than the lower limit. -/
theorem flag_of_cuts (first second : Nat) (b : List UInt8) :
    (decide (first < b.length) || decide (second < (b.take first).length)) =
      decide (min second first < b.length) := by
  rw [← Bool.decide_or, decide_eq_decide, List.length_take]
  omega

/-- **The two cuts are one**, at the lower of the two limits. -/
theorem sample_of_keep? (h : p.keep? e.record = some k) (hp : p.hidesPayload = false) :
    k.payload = e.payload.map (List.take p.sampleLimit) ∧
      k.truncated = (e.payload.map fun b => decide (p.sampleLimit < b.length)).getD false := by
  obtain ⟨-, rfl⟩ := keep?_eq_some_iff.1 h
  simp only [redact, hp, Event.record, Bool.false_eq_true, if_false]
  cases e.payload with
  | none => exact ⟨rfl, rfl⟩
  | some b =>
      simp only [Option.map_some, Option.getD_some, List.take_take, flag_of_cuts]
      exact ⟨rfl, rfl⟩

theorem correlationData_redactDetails (hp : p.hidesPayload = true) (o : Option Details)
    {d : PublishDetails} (h : o.map p.redactDetails = some (.publish d)) :
    d.correlationData = none := by
  obtain ⟨c, -, hc⟩ := Option.map_eq_some_iff.1 h
  cases c with
  | publish c =>
      cases hc
      exact if_pos hp
  | _ => cases hc

/-- **Of a payload that is not shown nothing is left**, nor of what comes with it. -/
theorem hidden_of_keep? (h : p.keep? e.record = some k) (hp : p.hidesPayload = true) :
    k.payload = none ∧ k.truncated = false ∧
      ∀ d, k.details = some (.publish d) → d.correlationData = none := by
  obtain ⟨-, rfl⟩ := keep?_eq_some_iff.1 h
  exact ⟨if_pos hp, if_pos hp, fun d hd => correlationData_redactDetails hp _ hd⟩

theorem payloadLength_of_keep? (h : p.keep? e.record = some k) :
    k.payloadLength = e.payloadLength := by
  obtain ⟨-, rfl⟩ := keep?_eq_some_iff.1 h
  rfl

/-- **What is left of a payload is cut once**, at what the configuration allows or at the limit on
what is captured, whichever is lower.  Of a payload that is excluded or withheld nothing is left but
its length. -/
theorem cut_once (version : UInt64) (s : Config.PolicySettings) (e : Event) (k : Record)
    (h : (ofSettings version s).keep? e.record = some k) :
    k.payloadLength = e.payloadLength ∧
    (s.payload.shown = true → s.redacts .payload = false →
      k.payload = e.payload.map (fun b =>
        b.take (min b.length (min s.payload.maxBytes captureLimit))) ∧
      (k.truncated = true ↔ min s.payload.maxBytes captureLimit < e.payloadLength)) ∧
    (s.payload.shown = false ∨ s.redacts .payload = true →
      k.payload = none ∧ k.truncated = false ∧
      ∀ d, k.details = some (.publish d) → d.correlationData = none) := by
  refine ⟨payloadLength_of_keep? h, fun hshown hkept => ?_, fun hhidden => ?_⟩
  · have hp : (ofSettings version s).hidesPayload = false :=
      hidesPayload_eq_false_iff.2 ⟨hshown, hkept⟩
    obtain ⟨hsample, hflag⟩ := sample_of_keep? h hp
    rw [hsample, hflag, sampleLimit_ofSettings, Event.payloadLength]
    cases e.payload with
    | none => simp
    | some b =>
        rw [Option.map_some, Option.map_some, Nat.min_comm b.length, ← List.take_eq_take_min]
        exact ⟨rfl, by simp⟩
  · refine hidden_of_keep? h ?_
    simpa [hidesPayload, ofSettings] using hhidden

end Policy

/-- A packet with this payload and nothing else. -/
def Event.publishing (payload : List UInt8) : Event where
  code      := 3
  direction := .inbound
  payload   := some payload
  time      := ⟨0, 0⟩

theorem Event.payloadLength_publishing (payload : List UInt8) :
    (publishing payload).payloadLength = payload.length := rfl

/-- A payload one byte above the limit on what is captured, where the configuration allows that
byte. -/
theorem Policy.cut_once_above :
    let p := Policy.ofSettings 1 { payload := { maxBytes := 65537 } }
    let e := Event.publishing (List.replicate 65537 0x78)
    ∃ k, p.keep? e.record = some k ∧ k.payloadLength = 65537 ∧
      k.payload = some (List.replicate 65536 0x78) ∧ k.truncated = true := by
  intro p e
  have hp : e.payload = some (List.replicate 65537 0x78) := rfl
  have hl : e.payloadLength = 65537 := by
    rw [Event.payloadLength_publishing, List.length_replicate]
  have h : p.keep? e.record = some (p.redact { e.record with subscriptions := [] }) := rfl
  obtain ⟨hlength, hshown, -⟩ := cut_once 1 { payload := { maxBytes := 65537 } } e _ h
  obtain ⟨hsample, hflag⟩ := hshown rfl rfl
  refine ⟨_, h, hlength.trans hl, hsample.trans ?_, hflag.2 ?_⟩
  · rw [hp, Option.map_some, List.take_replicate, List.length_replicate]
    rfl
  · rw [hl]
    decide

end PacketLog
