import PacketLog.Config.Source
import PacketLog.Proofs.KindTables

/-!
# Proofs — Leaves

What a layer says, setting by setting.

* `Layer.get_overlaid`: of two layers the upper one decides the settings it mentions.
* `Layer.resolve_congr`: what a layer resolves to depends on its settings alone.
* `Layer.inOrder_of_ofDocument`: the tables that are read from documents are in order.
-/

namespace PacketLog.Config

open Topic (Verdict)

/-! ### Settings -/

/-- A setting, which a layer may mention or leave open.  The two lists count as one setting each,
and so does each name in the table of kinds. -/
inductive Leaf : Type → Type where
  | enabled            : Leaf Bool
  | verbose            : Leaf Bool
  | format             : Leaf LineFormat
  | redact             : Leaf (List String)
  | payloadShown       : Leaf Bool
  | payloadLimit       : Leaf Int
  | topicDefault       : Leaf Verdict
  | topicRules         : Leaf (List RuleLayer)
  | kind (name : String) : Leaf KindToggle
  | queueCapacity      : Leaf Nat
  | batchSize          : Leaf Nat
  | maxAttempts        : Leaf Nat
  | baseDelay          : Leaf Nat
  | maxDelay           : Leaf Nat
  | jitter             : Leaf Bool
  | grace              : Leaf Nat
  | sinkKind           : Leaf SinkKind
  | sinkPath           : Leaf String

/-- What a layer says on a setting.  A section that is missing says nothing. -/
def Layer.get (l : Layer) {α : Type} : Leaf α → Option α
  | .enabled       => (l.policy.getD {}).enabled
  | .verbose       => (l.policy.getD {}).verbose
  | .format        => (l.policy.getD {}).format
  | .redact        => (l.policy.getD {}).redact
  | .payloadShown  => ((l.policy.getD {}).payload.getD {}).include?
  | .payloadLimit  => ((l.policy.getD {}).payload.getD {}).maxBytes
  | .topicDefault  => ((l.policy.getD {}).topics.getD {}).fallback
  | .topicRules    => ((l.policy.getD {}).topics.getD {}).rules
  | .kind name     => ((l.policy.getD {}).kinds.getD []).lookup name
  | .queueCapacity => (l.pipeline.getD {}).queueCapacity
  | .batchSize     => (l.pipeline.getD {}).batchSize
  | .maxAttempts   => (l.pipeline.getD {}).maxAttempts
  | .baseDelay     => (l.pipeline.getD {}).baseDelay
  | .maxDelay      => (l.pipeline.getD {}).maxDelay
  | .jitter        => (l.pipeline.getD {}).jitter
  | .grace         => (l.pipeline.getD {}).grace
  | .sinkKind      => (l.sink.getD {}).kind
  | .sinkPath      => (l.sink.getD {}).path

/-- The names in the table of kinds ascend. -/
def Layer.InOrder (l : Layer) : Prop := ((l.policy.getD {}).kinds.getD []).Ascending

/-! ### One layer over another -/

section Overlaid

/-- A section that is missing is as good as an empty one. -/
theorem getD_overlay {α : Type} {join : α → α → α} {empty : α} (left : ∀ a, join empty a = a)
    (right : ∀ a, join a empty = a) (lower upper : Option α) :
    (overlay join lower upper).getD empty = join (lower.getD empty) (upper.getD empty) := by
  cases lower with
  | none =>
      cases upper with
      | none => exact (left empty).symm
      | some b => exact (left b).symm
  | some a =>
      cases upper with
      | none => exact (right a).symm
      | some b => rfl

theorem overlay_none {α : Type} (join : α → α → α) (upper : Option α) :
    overlay join none upper = upper := by
  cases upper with
  | none => rfl
  | some b => rfl

theorem TopicsLayer.empty_overlaid (l : TopicsLayer) : overlaid {} l = l := by
  simp [overlaid]

theorem TopicsLayer.overlaid_empty (l : TopicsLayer) : overlaid l {} = l := by
  simp [overlaid]

theorem PayloadLayer.empty_overlaid (l : PayloadLayer) : overlaid {} l = l := by
  simp [overlaid]

theorem PayloadLayer.overlaid_empty (l : PayloadLayer) : overlaid l {} = l := by
  simp [overlaid]

theorem PolicyLayer.empty_overlaid (l : PolicyLayer) : overlaid {} l = l := by
  simp [overlaid, overlay_none]

theorem PolicyLayer.overlaid_empty (l : PolicyLayer) : overlaid l {} = l := by
  simp [overlaid, overlay]

theorem PipelineLayer.empty_overlaid (l : PipelineLayer) : overlaid {} l = l := by
  simp [overlaid]

theorem PipelineLayer.overlaid_empty (l : PipelineLayer) : overlaid l {} = l := by
  simp [overlaid]

theorem SinkLayer.empty_overlaid (l : SinkLayer) : overlaid {} l = l := by
  simp [overlaid]

theorem SinkLayer.overlaid_empty (l : SinkLayer) : overlaid l {} = l := by
  simp [overlaid]

variable {lower upper : Layer}

theorem Layer.policy_overlaid : (lower.overlaid upper).policy.getD {} =
    (lower.policy.getD {}).overlaid (upper.policy.getD {}) :=
  getD_overlay PolicyLayer.empty_overlaid PolicyLayer.overlaid_empty _ _

theorem Layer.pipeline_overlaid : (lower.overlaid upper).pipeline.getD {} =
    (lower.pipeline.getD {}).overlaid (upper.pipeline.getD {}) :=
  getD_overlay PipelineLayer.empty_overlaid PipelineLayer.overlaid_empty _ _

theorem Layer.sink_overlaid : (lower.overlaid upper).sink.getD {} =
    (lower.sink.getD {}).overlaid (upper.sink.getD {}) :=
  getD_overlay SinkLayer.empty_overlaid SinkLayer.overlaid_empty _ _

theorem PolicyLayer.payload_overlaid (p q : PolicyLayer) : (p.overlaid q).payload.getD {} =
    (p.payload.getD {}).overlaid (q.payload.getD {}) :=
  getD_overlay PayloadLayer.empty_overlaid PayloadLayer.overlaid_empty _ _

theorem PolicyLayer.topics_overlaid (p q : PolicyLayer) : (p.overlaid q).topics.getD {} =
    (p.topics.getD {}).overlaid (q.topics.getD {}) :=
  getD_overlay TopicsLayer.empty_overlaid TopicsLayer.overlaid_empty _ _

/-- Entering a table into the empty one gives the table itself only if its names ascend. -/
theorem KindTable.empty_insertAll {t : KindTable} (h : t.Ascending) : insertAll [] t = t := by
  refine (Ascending.insertAll .nil t).ext h fun n => ?_
  rw [lookup_insertAll [] h]
  cases t.lookup n <;> rfl

theorem PolicyLayer.kinds_overlaid (p : PolicyLayer) {q : PolicyLayer}
    (h : (q.kinds.getD []).Ascending) : (p.overlaid q).kinds.getD [] =
      (p.kinds.getD []).insertAll (q.kinds.getD []) := by
  unfold overlaid
  cases hp : p.kinds with
  | none =>
      simp only [overlay_none]
      exact (KindTable.empty_insertAll h).symm
  | some s =>
      cases hq : q.kinds with
      | none => rfl
      | some t => rfl

/-- **Of two layers the upper one decides the settings it mentions.** -/
theorem Layer.get_overlaid (h : upper.InOrder) {α : Type} (leaf : Leaf α) :
    (lower.overlaid upper).get leaf = (upper.get leaf).or (lower.get leaf) := by
  cases leaf with
  | kind name =>
      simp only [get, policy_overlaid, PolicyLayer.kinds_overlaid _ h]
      exact KindTable.lookup_insertAll _ h name
  | payloadShown => simp only [get, policy_overlaid, PolicyLayer.payload_overlaid]; rfl
  | payloadLimit => simp only [get, policy_overlaid, PolicyLayer.payload_overlaid]; rfl
  | topicDefault => simp only [get, policy_overlaid, PolicyLayer.topics_overlaid]; rfl
  | topicRules => simp only [get, policy_overlaid, PolicyLayer.topics_overlaid]; rfl
  | enabled | verbose | format | redact => simp only [get, policy_overlaid]; rfl
  | sinkKind | sinkPath => simp only [get, sink_overlaid]; rfl
  | _ => simp only [get, pipeline_overlaid]; rfl

theorem Layer.InOrder.overlaid (hl : lower.InOrder) (hu : upper.InOrder) :
    (lower.overlaid upper).InOrder := by
  unfold InOrder
  rw [policy_overlaid, PolicyLayer.kinds_overlaid _ hu]
  exact KindTable.Ascending.insertAll hl _

end Overlaid

/-! ### Resolving -/

section Resolving

attribute [ext] TopicsLayer PayloadLayer PipelineLayer SinkLayer

/-- Sections that are missing resolve like empty ones. -/
theorem PolicyLayer.resolve_congr {p q : PolicyLayer} (enabled : p.enabled = q.enabled)
    (verbose : p.verbose = q.verbose) (format : p.format = q.format) (redact : p.redact = q.redact)
    (payload : p.payload.getD {} = q.payload.getD {}) (kinds : p.kinds.getD [] = q.kinds.getD [])
    (topics : p.topics.getD {} = q.topics.getD {}) : p.resolve = q.resolve := by
  unfold resolve
  rw [enabled, verbose, format, redact, payload, kinds, topics]

/-- **What a layer resolves to depends on its settings alone.** -/
theorem Layer.resolve_congr {k l : Layer} (hk : k.InOrder) (hl : l.InOrder)
    (h : ∀ {α : Type} (leaf : Leaf α), k.get leaf = l.get leaf) : k.resolve = l.resolve := by
  -- sections are compared with missing ones filled in, setting by setting
  have hpolicy : (k.policy.getD {}).resolve = (l.policy.getD {}).resolve :=
    PolicyLayer.resolve_congr (h .enabled) (h .verbose) (h .format) (h .redact)
      (PayloadLayer.ext (h .payloadShown) (h .payloadLimit)) (hk.ext hl fun n => h (.kind n))
      (TopicsLayer.ext (h .topicDefault) (h .topicRules))
  have hpipeline : k.pipeline.getD {} = l.pipeline.getD {} :=
    PipelineLayer.ext (h .queueCapacity) (h .batchSize) (h .maxAttempts) (h .baseDelay)
      (h .maxDelay) (h .jitter) (h .grace)
  have hsink : k.sink.getD {} = l.sink.getD {} := SinkLayer.ext (h .sinkKind) (h .sinkPath)
  unfold resolve
  rw [hpolicy, hpipeline, hsink]

end Resolving

/-! ### Reading -/

section Reading

variable {ρ : Type} {rec : Record ρ} {P : ρ → Prop}

/-- Reading each field of the record preserves the property. -/
def Record.Preserves (rec : Record ρ) (P : ρ → Prop) : Prop :=
  ∀ f ∈ rec.fields, ∀ dialect d r s, P r → f.read dialect d r = .ok s → P s

theorem Record.readEntries_preserves (hf : rec.Preserves P) {dialect : Dialect}
    {es : List (String × Datum)} {q r : ρ} (hq : P q)
    (h : rec.readEntries dialect es q = .ok r) : P r := by
  induction es generalizing q with
  | nil =>
      cases h
      exact hq
  | cons e es ih =>
      unfold readEntries at h
      split at h
      · next f hfind =>
          cases hr : f.read dialect e.2 q with
          | error fault =>
              rw [hr] at h
              cases h
          | ok s =>
              rw [hr] at h
              exact ih (hf f (List.mem_of_find?_eq_some hfind) dialect e.2 q s hq hr) h
      · cases h

theorem Record.readItems_preserves (hf : rec.Preserves P) {dialect : Dialect} {done : Nat}
    {fs : List (Field ρ)} (hs : ∀ f ∈ fs, f ∈ rec.fields) {ds : List Datum} {q r : ρ} (hq : P q)
    (h : rec.readItems dialect done fs ds q = .ok r) : P r := by
  induction fs generalizing ds q done with
  | nil =>
      unfold readItems at h
      split at h
      · cases h
      · cases h
        exact hq
  | cons f fs ih =>
      cases ds with
      | nil =>
          unfold readItems at h
          split at h
          · cases h
          · cases h
            exact hq
      | cons d ds =>
          unfold readItems at h
          cases hr : f.read dialect d q with
          | error fault =>
              rw [hr] at h
              cases h
          | ok s =>
              rw [hr] at h
              have hp := hf f (hs f List.mem_cons_self) dialect d q s hq hr
              exact ih (fun g hg => hs g (List.mem_cons_of_mem f hg)) hp h

/-- **What every field of a record preserves holds of the record that is read.** -/
theorem Record.decode_preserves (hf : rec.Preserves P) {empty r : ρ} (he : P empty)
    {dialect : Dialect} {d : Datum} (h : rec.decode empty dialect d = .ok r) : P r := by
  unfold decode at h
  split at h
  · exact readEntries_preserves hf he h
  · exact readItems_preserves hf (fun _ hf => hf) he h
  · exact readEntries_preserves hf he h
  · cases h

/-- A field that may be missing preserves what setting it preserves. -/
theorem Field.optional_preserves {α : Type} {name : String} {decode : Decoder α}
    {set : α → ρ → ρ} (hset : ∀ dialect d a r, decode dialect d = .ok a → P r → P (set a r))
    (dialect : Dialect) (d : Datum) (r s : ρ) (hr : P r)
    (h : (Field.optional name decode set).read dialect d r = .ok s) : P s := by
  unfold optional at h
  simp only at h
  split at h
  · cases h
    exact hr
  · cases hd : decode dialect d with
    | error fault =>
        rw [hd] at h
        cases h
    | ok a =>
        rw [hd] at h
        cases h
        exact hset dialect d a r hd hr

theorem Decoder.ascending_of_policy {dialect : Dialect} {d : Datum} {p : PolicyLayer}
    (h : Decoder.policy dialect d = .ok p) : (p.kinds.getD []).Ascending := by
  -- every field but one leaves the table as it is
  have other {α : Type} {name : String} {decode : Decoder α} {set : α → PolicyLayer → PolicyLayer}
      (hset : ∀ a r, (set a r).kinds = r.kinds) (dialect : Dialect) (d : Datum)
      (r s : PolicyLayer) :
      (r.kinds.getD []).Ascending → (Field.optional name decode set).read dialect d r = .ok s →
        (s.kinds.getD []).Ascending := by
    refine Field.optional_preserves (P := fun p => (p.kinds.getD []).Ascending) ?_ dialect d r s
    intro _ _ a r _ hr
    rwa [hset]
  refine Record.decode_preserves (P := fun p => (p.kinds.getD []).Ascending) ?_ .nil h
  unfold Record.Preserves
  simp only [List.forall_mem_cons]
  refine ⟨other fun _ _ => rfl, other fun _ _ => rfl, other fun _ _ => rfl, other fun _ _ => rfl,
    other fun _ _ => rfl, ?_, other fun _ _ => rfl, nofun⟩
  exact Field.optional_preserves fun _ _ es _ _ _ => KindTable.ascending_ofList es

theorem Decoder.inOrder_of_layer {dialect : Dialect} {d : Datum} {l : Layer}
    (h : Decoder.layer dialect d = .ok l) : l.InOrder := by
  refine Record.decode_preserves (P := Layer.InOrder) ?_ (show Layer.InOrder {} from .nil) h
  unfold Record.Preserves
  simp only [List.forall_mem_cons]
  refine ⟨?_, ?_, ?_, nofun⟩
  · exact Field.optional_preserves fun _ _ _ _ hp _ => ascending_of_policy hp
  · exact Field.optional_preserves fun _ _ _ _ _ hr => hr
  · exact Field.optional_preserves fun _ _ _ _ _ hr => hr

/-- The tables of a layer that is read from a document are in order. -/
theorem Layer.inOrder_of_ofDocument {document : String} {l : Layer}
    (h : Layer.ofDocument document = .ok l) : l.InOrder := by
  unfold ofDocument at h
  split at h
  · cases h
  · exact Decoder.inOrder_of_layer h

theorem bind_eq_ok {ε α β : Type} {x : Except ε α} {f : α → Except ε β} {b : β}
    (h : (x >>= f) = .ok b) : ∃ a, x = .ok a ∧ f a = .ok b := by
  cases x with
  | error e => cases h
  | ok a => exact ⟨a, rfl, h⟩

theorem bind_eq_error_iff {ε α β : Type} {x : Except ε α} {f : α → Except ε β} {e : ε} :
    (x >>= f) = .error e ↔ x = .error e ∨ ∃ a, x = .ok a ∧ f a = .error e := by
  cases x <;> simp [bind, Except.bind]

/-- Environment variables name no kinds. -/
theorem Variables.inOrder_of_layer {vs : Variables} {l : Layer} (h : vs.layer = .ok l) :
    l.InOrder := by
  unfold layer at h
  obtain ⟨p, hp, h⟩ := bind_eq_ok h
  obtain ⟨_, -, h⟩ := bind_eq_ok h
  obtain ⟨_, -, h⟩ := bind_eq_ok h
  unfold policy at hp
  obtain ⟨_, -, hp⟩ := bind_eq_ok hp
  obtain ⟨_, -, hp⟩ := bind_eq_ok hp
  cases hp
  cases h
  exact .nil

/-- The tables of a file, a document or the environment are in order. -/
theorem File.inOrder_of_layer {f : File} {l : Layer} (h : f.layer = .ok l) : l.InOrder := by
  unfold layer at h
  split at h
  · cases h
    exact .nil
  · cases h
  · cases h
  · split at h
    · cases h
    · split at h
      · next hd =>
          cases h
          exact Layer.inOrder_of_ofDocument hd
      · cases h

end Reading

end PacketLog.Config
