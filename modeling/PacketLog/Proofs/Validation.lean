import PacketLog.Proofs.Grammar
import PacketLog.Proofs.KindPrecedence
import PacketLog.Proofs.Unicode

/-!
# Proofs — Validation

Which layers resolve, what is reported of the others, and what those that do resolve to.

* `Checks`: the outcome of a check by a list of requirements, the first of which that is not
  satisfied is reported.  Checks can be made one after the other (`Checks.bind`).
* `Layer.checks_resolve`: resolving a layer checks its requirements.
* `Layer.gives_of_resolve`: a setting is what the layer says, or its default.
* `Layer.resolve_validates`: what resolving a layer comes to.
-/

namespace PacketLog

open Topic (WellFormed Verdict)

namespace Config

/-! ### Requirements -/

/-- What a layer has to satisfy at one place. -/
inductive Requirement where
  /-- A name in the table of kinds is that of a kind. -/
  | knownKind (name : String)
  /-- A rule has a topic filter. -/
  | wellFormed (index : Nat) (pattern : String)
  /-- The payload limit, if there is one, is not negative. -/
  | notNegative (limit : Option Int)
  /-- A name in the list is that of something that can be withheld. -/
  | knownRedaction (index : Nat) (name : String)
  /-- A number, if there is one, is not zero. -/
  | positive (field : String) (constraint : Constraint) (number : Option Nat)
  /-- The greatest delay is not below the first, the defaults standing in. -/
  | orderedDelays (base max : Option Nat)
  /-- A file has a path. -/
  | pathGiven (kind : Option SinkKind) (path : Option String)

namespace Requirement

/-- The layer satisfies the requirement. -/
def Holds : Requirement → Prop
  | knownKind name        => ∃ kind : PacketKind, Text.sameLetters kind.name name = true
  | wellFormed _ pattern  => WellFormed pattern
  | notNegative limit     => ∀ n ∈ limit, 0 ≤ n
  | knownRedaction _ name => ∃ r : Redaction, r.name = name
  | positive _ _ number   => number ≠ some 0
  | orderedDelays base max => base.getD 50 ≤ max.getD 2000
  | pathGiven kind path   => kind = some .file → ∃ p, path = some p ∧ p ≠ ""

/-- The setting the requirement is about. -/
def field : Requirement → String
  | knownKind name     => s!"policy.kinds.{name}"
  | wellFormed i _     => s!"policy.topics.rules[{i}].pattern"
  | notNegative _      => "policy.payload.max_bytes"
  | knownRedaction i _ => s!"policy.redact[{i}]"
  | positive field _ _ => field
  | orderedDelays _ _  => "pipeline.retry_max_delay_ms"
  | pathGiven _ _      => "sink.path"

/-- The error says that the requirement is not satisfied. -/
inductive Blames : Requirement → ConfigError → Prop where
  | knownKind {name : String} : Blames (.knownKind name) (.unknownKind name)
  | wellFormed {i : Nat} {p : String} {reason : Topic.PatternError}
      (h : Topic.Pattern.parse p = .error reason) :
      Blames (.wellFormed i p) (.badPattern i p reason)
  | notNegative {n : Int} : Blames (.notNegative (some n)) (.negativeLimit n)
  | knownRedaction {i : Nat} {name : String} :
      Blames (.knownRedaction i name) (.unknownRedaction i name)
  | positive {field : String} {c : Constraint} {number : Option Nat} (h : c.field = field) :
      Blames (.positive field c number) (.broken c)
  | orderedDelays {base max : Option Nat} :
      Blames (.orderedDelays base max) (.broken .orderedDelays)
  | pathGiven {kind : Option SinkKind} {path : Option String} :
      Blames (.pathGiven kind path) (.broken .pathGiven)

/-- An error names the setting of the requirement. -/
theorem Blames.field?_eq {q : Requirement} {e : ConfigError} (h : q.Blames e) :
    e.field? = some q.field := by
  cases h with
  | positive h => exact congrArg some h
  | _ => rfl

end Requirement

/-- The requirements of a layer, in the order in which they are checked. -/
def Layer.requirements (l : Layer) : List Requirement :=
  ((l.policy.getD {}).kinds.getD []).map (fun e => .knownKind e.1) ++
  ((l.get .topicRules).getD []).mapIdx (fun i r => .wellFormed i r.pattern) ++
  [.notNegative (l.get .payloadLimit)] ++
  ((l.get .redact).getD []).mapIdx .knownRedaction ++
  [.positive "pipeline.queue_capacity" .positiveCapacity (l.get .queueCapacity),
    .positive "pipeline.batch_size" .positiveBatch (l.get .batchSize),
    .positive "pipeline.retry_max_attempts" .positiveAttempts (l.get .maxAttempts),
    .orderedDelays (l.get .baseDelay) (l.get .maxDelay)] ++
  [.pathGiven (l.get .sinkKind) (l.get .sinkPath)]

/-! ### Checks -/

/-- The outcome of a check by the requirements: a value if they are all satisfied, and otherwise an
error on the first that is not. -/
inductive Checks {α : Type} : List Requirement → Except ConfigError α → Prop where
  | passes {qs : List Requirement} {a : α} (h : ∀ q ∈ qs, q.Holds) : Checks qs (.ok a)
  | fails {before after : List Requirement} {q : Requirement} {e : ConfigError}
      (hb : ∀ r ∈ before, r.Holds) (hq : ¬q.Holds) (he : q.Blames e) :
      Checks (before ++ q :: after) (.error e)

namespace Checks

variable {α β : Type} {ps qs : List Requirement} {q : Requirement} {x : Except ConfigError α}

theorem nil (a : α) : Checks [] (.ok a) := .passes nofun

/-- A requirement that is satisfied changes nothing. -/
theorem cons (hq : q.Holds) (h : Checks qs x) : Checks (q :: qs) x := by
  cases h with
  | passes h => exact .passes (List.forall_mem_cons.2 ⟨hq, h⟩)
  | fails hb hr he =>
      rw [← List.cons_append]
      exact .fails (List.forall_mem_cons.2 ⟨hq, hb⟩) hr he

/-- Of a requirement that is not satisfied the others hide nothing. -/
theorem error {e : ConfigError} (hq : ¬q.Holds) (he : q.Blames e) :
    Checks (q :: qs) (.error e : Except ConfigError α) := by
  rw [← List.nil_append (q :: qs)]
  exact .fails nofun hq he

/-- **Checks are made one after the other.** -/
theorem bind {f : α → Except ConfigError β} (h : Checks ps x)
    (hf : ∀ a, x = .ok a → Checks qs (f a)) : Checks (ps ++ qs) (x >>= f) := by
  cases h with
  | @passes _ a h =>
      induction ps with
      | nil => exact hf a rfl
      | cons p ps ih =>
          obtain ⟨hp, h⟩ := List.forall_mem_cons.1 h
          exact .cons hp (ih h)
  | fails hb hq he =>
      rw [List.append_assoc, List.cons_append]
      exact .fails hb hq he

/-- What is done with the value is not checked. -/
theorem map (h : Checks qs x) (f : α → β) : Checks qs (x >>= fun a => .ok (f a)) := by
  rw [← List.append_nil qs]
  exact h.bind fun a _ => .nil (f a)

/-- A condition under which there is an error is a requirement. -/
theorem ite {p : Prop} [Decidable p] {e : ConfigError} (hp : p ↔ ¬q.Holds) (he : q.Blames e)
    (h : Checks qs x) : Checks (q :: qs) (if p then .error e else x) := by
  split
  · next hc => exact .error (hp.1 hc) he
  · next hc => exact .cons (not_not.1 fun hn => hc (hp.2 hn)) h

/-- There is a value if all requirements are satisfied, and only then. -/
theorem exists_ok_iff (h : Checks qs x) : (∃ a, x = .ok a) ↔ ∀ q ∈ qs, q.Holds := by
  cases h with
  | passes h => exact ⟨fun _ => h, fun _ => ⟨_, rfl⟩⟩
  | fails hb hq he =>
      refine ⟨?_, fun h => absurd (h _ (List.mem_append_right _ List.mem_cons_self)) hq⟩
      rintro ⟨a, ha⟩
      cases ha

/-- An error is on the first requirement that is not satisfied. -/
theorem exists_of_error {e : ConfigError} (h : Checks qs x) (hx : x = .error e) :
    ∃ before q after, qs = before ++ q :: after ∧ (∀ r ∈ before, r.Holds) ∧ ¬q.Holds ∧
      q.Blames e := by
  cases h with
  | passes h => cases hx
  | fails hb hq he =>
      cases hx
      exact ⟨_, _, _, rfl, hb, hq, he⟩

end Checks

/-! ### The requirements of a layer -/

section Checking

theorem not_knownKind_of_ofName? {name : String}
    (h : PacketKind.ofName? name = none) :
    ¬(Requirement.knownKind name).Holds := by
  rintro ⟨kind, hk⟩
  exact List.find?_eq_none.1 h kind (PacketKind.mem_all kind) hk

theorem checks_resolveKinds (t : KindTable) (flags : KindFlags) :
    Checks (t.map fun e => .knownKind e.1) (resolveKinds t flags) := by
  induction t generalizing flags with
  | nil => exact .nil flags
  | cons e t ih =>
      obtain ⟨name, toggle⟩ := e
      rw [List.map_cons, resolveKinds]
      cases hk : PacketKind.ofName? name with
      | none => exact .error (not_knownKind_of_ofName? hk) .knownKind
      | some kind => exact .cons ⟨kind, PacketKind.sameLetters_of_ofName? hk⟩ (ih _)

theorem checks_resolveRules (index : Nat) (rs : List RuleLayer) :
    Checks (rs.mapIdx fun i r => .wellFormed (index + i) r.pattern) (resolveRules index rs) := by
  induction rs generalizing index with
  | nil => exact .nil _
  | cons r rs ih =>
      have hnext := ih (index + 1)
      simp only [Nat.add_right_comm index 1, Nat.add_assoc index _ 1] at hnext
      rw [List.mapIdx_cons, resolveRules]
      cases hp : Topic.Pattern.parse r.pattern with
      | error reason =>
          refine .error (fun h => ?_) (.wellFormed hp)
          obtain ⟨p, ho⟩ := Topic.Pattern.exists_parse_iff.2 h
          cases hp.symm.trans ho
      | ok pattern => exact .cons (Topic.Pattern.exists_parse_iff.1 ⟨pattern, hp⟩) (hnext.map _)

theorem ofName?_eq_some_iff {name : String} {r : Redaction} :
    Redaction.ofName? name = some r ↔ r.name = name := by
  constructor
  · intro h
    unfold Redaction.ofName? at h
    have hs := List.find?_some h
    exact of_decide_eq_true hs
  · rintro rfl
    cases r <;> rfl

theorem checks_resolveRedactions (index : Nat) (ns : List String) :
    Checks (ns.mapIdx fun i n => .knownRedaction (index + i) n) (resolveRedactions index ns) := by
  induction ns generalizing index with
  | nil => exact .nil _
  | cons n ns ih =>
      have hnext := ih (index + 1)
      simp only [Nat.add_right_comm index 1, Nat.add_assoc index _ 1] at hnext
      rw [List.mapIdx_cons, resolveRedactions]
      cases hn : Redaction.ofName? n with
      | none =>
          refine .error ?_ .knownRedaction
          rintro ⟨r, hr⟩
          cases hn.symm.trans (ofName?_eq_some_iff.2 hr)
      | some r => exact .cons ⟨r, ofName?_eq_some_iff.1 hn⟩ (hnext.map _)

theorem TopicsLayer.checks_resolve (l : TopicsLayer) :
    Checks ((l.rules.getD []).mapIdx fun i r => .wellFormed i r.pattern) l.resolve := by
  have h := checks_resolveRules 0 (l.rules.getD [])
  simp only [Nat.zero_add] at h
  exact h.map _

theorem PayloadLayer.checks_resolve (l : PayloadLayer) :
    Checks [.notNegative l.maxBytes] l.resolve := by
  unfold resolve
  cases l.maxBytes with
  | none => exact .cons nofun (.nil _)
  | some n =>
      refine .ite ?_ .notNegative (.nil _)
      simp [Requirement.Holds]

theorem PolicyLayer.checks_resolve (l : PolicyLayer) :
    Checks (((l.kinds.getD []).map fun e => .knownKind e.1) ++
      (((l.topics.getD {}).rules.getD []).mapIdx fun i r => .wellFormed i r.pattern) ++
      [.notNegative (l.payload.getD {}).maxBytes] ++
      (l.redact.getD []).mapIdx .knownRedaction) l.resolve := by
  have hredact := checks_resolveRedactions 0 (l.redact.getD [])
  simp only [Nat.zero_add] at hredact
  rw [List.append_assoc, List.append_assoc]
  unfold resolve
  refine (checks_resolveKinds _ _).bind fun _ _ => ?_
  refine (l.topics.getD {}).checks_resolve.bind fun _ _ => ?_
  refine (l.payload.getD {}).checks_resolve.bind fun _ _ => ?_
  exact hredact.map _

/-- A number that is absent has a default that is not zero. -/
theorem Requirement.positive_iff {field : String} {c : Constraint} {number : Option Nat}
    {default : Nat} (h : default ≠ 0) :
    number.getD default = 0 ↔ ¬(Requirement.positive field c number).Holds := by
  cases number with
  | none => simp [Holds, h]
  | some n => simp [Holds]

theorem PipelineLayer.checks_resolve (l : PipelineLayer) :
    Checks [.positive "pipeline.queue_capacity" .positiveCapacity l.queueCapacity,
      .positive "pipeline.batch_size" .positiveBatch l.batchSize,
      .positive "pipeline.retry_max_attempts" .positiveAttempts l.maxAttempts,
      .orderedDelays l.baseDelay l.maxDelay] l.resolve := by
  unfold resolve
  refine .ite (Requirement.positive_iff (by decide)) (.positive rfl) ?_
  refine .ite (Requirement.positive_iff (by decide)) (.positive rfl) ?_
  refine .ite (Requirement.positive_iff (by decide)) (.positive rfl) ?_
  exact .ite Nat.not_le.symm .orderedDelays (.nil _)

theorem SinkLayer.checks_resolve (l : SinkLayer) : Checks [.pathGiven l.kind l.path] l.resolve := by
  unfold resolve
  cases hk : l.kind with
  | none => exact .cons nofun (.nil _)
  | some kind =>
      cases kind with
      | tracing => exact .cons nofun (.nil _)
      | file =>
          cases hp : l.path with
          | none => exact .error (by simp [Requirement.Holds]) .pathGiven
          | some path =>
              refine .ite ?_ .pathGiven (.nil _)
              simp [Requirement.Holds]

/-- **Resolving a layer checks its requirements.** -/
theorem Layer.checks_resolve (l : Layer) : Checks l.requirements l.resolve := by
  unfold resolve requirements
  rw [List.append_assoc]
  refine (l.policy.getD {}).checks_resolve.bind fun _ _ => ?_
  refine (l.pipeline.getD {}).checks_resolve.bind fun _ _ => ?_
  exact (l.sink.getD {}).checks_resolve.map _

end Checking

/-! ### What a layer resolves to -/

section Giving

/-- The rule is the one that is written. -/
structure RuleLayer.Gives (l : RuleLayer) (r : Topic.Rule) : Prop where
  pattern : Topic.Pattern.parse l.pattern = .ok r.pattern
  verdict : r.verdict = l.verdict

/-- The settings are those of which the layer speaks, and the defaults of all others. -/
structure Layer.Gives (l : Layer) (s : Settings) : Prop where
  enabled  : s.policy.enabled = (l.get .enabled).getD true
  verbose  : s.policy.verbose = (l.get .verbose).getD false
  format   : s.policy.format = (l.get .format).getD .text
  /-- On a kind the last entry decides that says anything on it. -/
  kinds    : ∀ kind dir, s.policy.kinds.allows kind dir =
    (((l.policy.getD {}).kinds.getD []).flag? kind dir).getD true
  rules    : List.Forall₂ RuleLayer.Gives ((l.get .topicRules).getD []) s.policy.topics.rules
  fallback : s.policy.topics.fallback = (l.get .topicDefault).getD .allow
  shown    : s.policy.payload.shown = (l.get .payloadShown).getD true
  maxBytes : (s.policy.payload.maxBytes : Int) = (l.get .payloadLimit).getD 4096
  redacts  : ∀ r, s.policy.redacts r = true ↔ r.name ∈ (l.get .redact).getD []
  queueCapacity : s.pipeline.queueCapacity = (l.get .queueCapacity).getD 10000
  batchSize     : s.pipeline.batchSize = (l.get .batchSize).getD 256
  maxAttempts   : s.pipeline.maxAttempts = (l.get .maxAttempts).getD 3
  baseDelay     : s.pipeline.baseDelay = (l.get .baseDelay).getD 50
  maxDelay      : s.pipeline.maxDelay = (l.get .maxDelay).getD 2000
  jitter        : s.pipeline.jitter = (l.get .jitter).getD true
  grace         : s.pipeline.grace = (l.get .grace).getD 5000
  tracing  : (l.get .sinkKind).getD .tracing = .tracing → s.sink = .tracing
  file     : l.get .sinkKind = some .file → ∃ p, l.get .sinkPath = some p ∧ s.sink = .file p

theorem allows_of_resolveKinds {t : KindTable} {flags r : KindFlags}
    (h : resolveKinds t flags = .ok r) (kind : PacketKind) (dir : Direction) :
    r.allows kind dir = (t.flag? kind dir).getD (flags.allows kind dir) := by
  have hvalid : t.Valid := by
    intro e he
    have hholds : (Requirement.knownKind e.1).Holds :=
      (checks_resolveKinds t flags).exists_ok_iff.1 ⟨r, h⟩ _ (List.mem_map_of_mem he)
    cases hk : PacketKind.ofName? e.1 with
    | none => exact absurd hholds (not_knownKind_of_ofName? hk)
    | some k => exact ⟨k, rfl⟩
  obtain ⟨r', hr, hallows⟩ := KindTable.resolve_valid hvalid flags
  rw [Except.ok.inj (h.symm.trans hr)]
  exact hallows kind dir

theorem gives_of_resolveRules {index : Nat} {ls : List RuleLayer} {rs : List Topic.Rule}
    (h : resolveRules index ls = .ok rs) : List.Forall₂ RuleLayer.Gives ls rs := by
  induction ls generalizing index rs with
  | nil =>
      cases h
      exact .nil
  | cons l ls ih =>
      rw [resolveRules] at h
      cases hp : Topic.Pattern.parse l.pattern with
      | error reason =>
          rw [hp] at h
          cases h
      | ok pattern =>
          rw [hp] at h
          obtain ⟨rest, hrest, h⟩ := bind_eq_ok h
          cases h
          exact .cons ⟨hp, rfl⟩ (ih hrest)

theorem names_of_resolveRedactions {index : Nat} {ns : List String} {rs : List Redaction}
    (h : resolveRedactions index ns = .ok rs) : rs.map Redaction.name = ns := by
  induction ns generalizing index rs with
  | nil =>
      cases h
      rfl
  | cons n ns ih =>
      rw [resolveRedactions] at h
      cases hn : Redaction.ofName? n with
      | none =>
          rw [hn] at h
          cases h
      | some r =>
          rw [hn] at h
          obtain ⟨rest, hrest, h⟩ := bind_eq_ok h
          cases h
          rw [List.map_cons, ih hrest, ofName?_eq_some_iff.1 hn]

/-- Something is withheld if its name is in the list. -/
theorem contains_of_resolveRedactions {index : Nat} {ns : List String} {rs : List Redaction}
    (h : resolveRedactions index ns = .ok rs) (r : Redaction) :
    rs.contains r = true ↔ r.name ∈ ns := by
  have hinj : Function.Injective Redaction.name := by
    intro a b hab
    exact Option.some.inj
      ((ofName?_eq_some_iff.2 rfl).symm.trans (ofName?_eq_some_iff.2 hab.symm))
  rw [← names_of_resolveRedactions h, List.mem_map_of_injective hinj, List.contains_iff_mem]

theorem PayloadLayer.of_resolve {l : PayloadLayer} {s : PayloadSettings} (h : l.resolve = .ok s) :
    s.shown = l.include?.getD true ∧ (s.maxBytes : Int) = l.maxBytes.getD 4096 := by
  unfold resolve at h
  cases hm : l.maxBytes with
  | none =>
      rw [hm] at h
      cases h
      exact ⟨rfl, rfl⟩
  | some n =>
      simp only [hm] at h
      split at h
      · cases h
      · next hn =>
          cases h
          exact ⟨rfl, Int.toNat_of_nonneg (Int.not_lt.1 hn)⟩

theorem PipelineLayer.of_resolve {l : PipelineLayer} {s : PipelineSettings}
    (h : l.resolve = .ok s) : s = l.withDefaults := by
  unfold resolve at h
  simp only at h
  repeat' split at h
  all_goals cases h
  rfl

theorem SinkLayer.of_resolve {l : SinkLayer} {s : SinkSettings} (h : l.resolve = .ok s) :
    (l.kind.getD .tracing = .tracing → s = .tracing) ∧
      (l.kind = some .file → ∃ p, l.path = some p ∧ s = .file p) := by
  unfold resolve at h
  split at h
  · next hk =>
      cases h
      refine ⟨fun _ => rfl, fun hf => ?_⟩
      rw [hf] at hk
      cases hk
  · next hk =>
      refine ⟨fun ht => absurd (hk.symm.trans ht) (by decide), fun _ => ?_⟩
      split at h
      · next path hp =>
          split at h
          · cases h
          · cases h
            exact ⟨path, hp, rfl⟩
      · cases h

/-- **A setting is what the layer says, or its default.** -/
theorem Layer.gives_of_resolve {l : Layer} {s : Settings} (h : l.resolve = .ok s) : l.Gives s := by
  unfold Layer.resolve at h
  obtain ⟨policy, hpolicy, h⟩ := bind_eq_ok h
  obtain ⟨pipeline, hpipeline, h⟩ := bind_eq_ok h
  obtain ⟨sink, hsink, h⟩ := bind_eq_ok h
  cases h
  unfold PolicyLayer.resolve at hpolicy
  obtain ⟨kinds, hkinds, hpolicy⟩ := bind_eq_ok hpolicy
  obtain ⟨topics, htopics, hpolicy⟩ := bind_eq_ok hpolicy
  obtain ⟨payload, hpayload, hpolicy⟩ := bind_eq_ok hpolicy
  obtain ⟨redactions, hredactions, hpolicy⟩ := bind_eq_ok hpolicy
  cases hpolicy
  unfold TopicsLayer.resolve at htopics
  obtain ⟨rules, hrules, htopics⟩ := bind_eq_ok htopics
  cases htopics
  obtain ⟨hshown, hmax⟩ := PayloadLayer.of_resolve hpayload
  obtain rfl := PipelineLayer.of_resolve hpipeline
  obtain ⟨htracing, hfile⟩ := SinkLayer.of_resolve hsink
  exact {
    enabled := rfl, verbose := rfl, format := rfl
    kinds := allows_of_resolveKinds hkinds
    rules := gives_of_resolveRules hrules
    fallback := rfl
    shown := hshown
    maxBytes := hmax
    redacts := contains_of_resolveRedactions hredactions
    queueCapacity := rfl, batchSize := rfl, maxAttempts := rfl, baseDelay := rfl, maxDelay := rfl
    jitter := rfl, grace := rfl
    tracing := htracing
    file := hfile }

end Giving

/-! ### The laws of validation -/

section Validation

/-- All there is to say about what a layer resolves to. -/
structure Layer.Validates (l : Layer) : Prop where
  /-- It resolves if it satisfies its requirements, and only then. -/
  resolves : (∃ s, l.resolve = .ok s) ↔ ∀ q ∈ l.requirements, q.Holds
  /-- Otherwise the error is on the first requirement that is not satisfied, of the kind that
  belongs to it, and names its setting. -/
  reports : ∀ e, l.resolve = .error e → ∃ before q after,
    l.requirements = before ++ q :: after ∧ (∀ r ∈ before, r.Holds) ∧ ¬q.Holds ∧ q.Blames e ∧
      e.field? = some q.field
  /-- The names of kinds are in the order of their bytes. -/
  ascending : (((l.policy.getD {}).kinds.getD []).map fun e => Text.Utf8.encode e.1).Pairwise
    (· < ·)
  /-- The settings are those of which the layer speaks, and the defaults of all others. -/
  gives : ∀ s, l.resolve = .ok s → l.Gives s

/-- **A layer resolves if it satisfies its requirements.**  If it does not, the first that it does
not satisfy is reported, and if it does, it gives its settings. -/
theorem Layer.resolve_validates {l : Layer} (h : l.InOrder) : l.Validates where
  resolves := l.checks_resolve.exists_ok_iff
  reports e he := by
    obtain ⟨before, q, after, hq, hb, hn, hblames⟩ := l.checks_resolve.exists_of_error he
    exact ⟨before, q, after, hq, hb, hn, hblames, hblames.field?_eq⟩
  ascending := List.pairwise_map.2 (h.imp Text.Utf8.encode_lt_encode)
  gives _ := Layer.gives_of_resolve

/-- A layer with two faults, of which the lone delay that is greater than the default is not the
first. -/
def Layer.faulty : Layer where
  policy   := some { kinds := some [("PUBLISH", .both true), ("publish", .both false)] }
  pipeline := some { baseDelay := some 3000, batchSize := some 0 }

theorem Layer.resolve_validates_faulty : Layer.faulty.Validates ∧
    ∃ e, Layer.faulty.resolve = .error e ∧ e.field? = some "pipeline.batch_size" := by
  have h : Layer.faulty.InOrder := by
    unfold InOrder KindTable.Ascending faulty
    decide +kernel
  exact ⟨resolve_validates h, .broken .positiveBatch, rfl, rfl⟩

end Validation

end Config

end PacketLog
