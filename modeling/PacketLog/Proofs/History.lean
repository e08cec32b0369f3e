import Mathlib.Algebra.Group.Nat.Defs
import Mathlib.Data.List.Induction
import PacketLog.FileSystem
import PacketLog.Policy
import PacketLog.Proofs.Leaves

/-!
# Proofs — History

What a store of policies holds after any number of calls.

* `Layer.resolve_eq_error_iff`: a layer is refused by the first of its three sections that does not
  stand.
* `PolicyStore.perform_ok`, `PolicyStore.perform_error`: what one call does.
* `PolicyStore.records_past`: the store and all that has come out of it, told by the settings that
  have been installed.
* `PolicyStore.history_lawful`: the law of every history.
-/

namespace PacketLog

open Config (ConfigError Layer PolicySettings Settings Source bind_eq_error_iff)

/-! ### Refusals -/

/-- The first section of the layer that does not stand is refused, for this reason. -/
inductive Config.Layer.Refused (l : Layer) : ConfigError → Prop where
  | policy {e : ConfigError} (h : (l.policy.getD {}).resolve = .error e) : Refused l e
  | pipeline {p : PolicySettings} {e : ConfigError} (hp : (l.policy.getD {}).resolve = .ok p)
      (h : (l.pipeline.getD {}).resolve = .error e) : Refused l e
  | sink {p : PolicySettings} {q : Config.PipelineSettings} {e : ConfigError}
      (hp : (l.policy.getD {}).resolve = .ok p) (hq : (l.pipeline.getD {}).resolve = .ok q)
      (h : (l.sink.getD {}).resolve = .error e) : Refused l e

theorem Config.Layer.resolve_eq_error_iff {l : Layer} {e : ConfigError} :
    l.resolve = .error e ↔ l.Refused e := by
  unfold resolve
  rw [bind_eq_error_iff]
  constructor
  · rintro (h | ⟨p, hp, h⟩)
    · exact .policy h
    · rcases bind_eq_error_iff.mp h with h | ⟨q, hq, h⟩
      · exact .pipeline hp h
      · rcases bind_eq_error_iff.mp h with h | ⟨s, hs, h⟩
        · exact .sink hp hq h
        · cases h
  · rintro (h | ⟨hp, h⟩ | ⟨hp, hq, h⟩)
    · exact .inl h
    · exact .inr ⟨_, hp, bind_eq_error_iff.mpr (.inl h)⟩
    · exact .inr ⟨_, hp, bind_eq_error_iff.mpr (.inr ⟨_, hq, bind_eq_error_iff.mpr (.inl h)⟩)⟩

namespace PolicyStore

/-! ### One call -/

/-- A call of a store. -/
inductive Call where
  /-- Install the policy of a document. -/
  | reload (document : String)
  /-- Install the policy that a file and the environment describe, as they are at the moment. -/
  | reloadFrom (fs : FileSystem) (path : String) (vs : Config.Variables)
  | replace (s : PolicySettings)

namespace Call

/-- The policy to be installed, or why there is none. -/
def loaded : Call → Except ConfigError PolicySettings
  | reload document       => (Settings.ofDocument document).map (·.policy)
  | reloadFrom fs path vs => (Settings.load (fs.document path) vs).map (·.policy)
  | replace s             => .ok s

/-- The layer that the call reads, or why there is none, if it reads any. -/
def layer? : Call → Option (Except ConfigError Layer)
  | reload document       => some ((Layer.ofDocument document).mapError .badDocument)
  | reloadFrom fs path vs =>
    some (Source.stack {} (Source.sorted [.defaults, .file (fs.document path), .environment vs]))
  | replace _             => none

/-- The call is refused for this reason: there is no layer to be read, or a section of the layer
does not stand. -/
def Refused (c : Call) (e : ConfigError) : Prop :=
  c.layer? = some (.error e) ∨ ∃ l, c.layer? = some (.ok l) ∧ l.Refused e

theorem loaded_of_layer? {c : Call} {r : Except ConfigError Layer} (h : c.layer? = some r) :
    c.loaded = (r >>= Layer.resolve).map (·.policy) := by
  cases c with
  | reload document =>
      cases h
      rw [loaded, Settings.ofDocument]
      cases Layer.ofDocument document <;> rfl
  | reloadFrom fs path vs =>
      cases h
      rfl
  | replace s => cases h

theorem loaded_eq_error_iff {c : Call} {e : ConfigError} :
    c.loaded = .error e ↔ c.Refused e := by
  unfold Refused
  cases h : c.layer? with
  | none =>
      cases c with
      | replace s => simp [loaded]
      | _ => cases h
  | some r =>
      have hmap : ∀ x : Except ConfigError Settings,
          x.map (·.policy) = .error e ↔ x = .error e := by
        rintro (e' | s) <;> simp [Except.map]
      rw [loaded_of_layer? h, hmap, bind_eq_error_iff]
      simp only [Layer.resolve_eq_error_iff, Option.some.injEq]

end Call

/-- Make a call, and get the policy that is now in force or why nothing has changed. -/
def perform (store : PolicyStore) : Call → Except ConfigError Policy × PolicyStore
  | .reload document       => answer (store.reload (Settings.ofDocument document))
  | .reloadFrom fs path vs => answer (store.reload (Settings.load (fs.document path) vs))
  | .replace s             => answer (.ok (), store.replace s)
where
  /-- The answer of a call that leaves the store like this. -/
  answer : Except ConfigError Unit × PolicyStore → Except ConfigError Policy × PolicyStore
    | (r, store) => (r.map fun _ => store.current, store)

/-- Install a policy and answer with it, or answer why there is none. -/
def grant (store : PolicyStore) :
    Except ConfigError PolicySettings → Except ConfigError Policy × PolicyStore
  | .ok s    => (.ok (store.replace s).current, store.replace s)
  | .error e => (.error e, store)

/-- A call does no more than to install the policy it is about. -/
theorem perform_eq (store : PolicyStore) (c : Call) : store.perform c = store.grant c.loaded := by
  cases c with
  | reload document =>
      rw [perform, Call.loaded]
      cases Settings.ofDocument document <;> rfl
  | reloadFrom fs path vs =>
      rw [perform, Call.loaded]
      cases Settings.load (fs.document path) vs <;> rfl
  | replace s => rfl

theorem perform_ok (store : PolicyStore) {c : Call} {s : PolicySettings} (h : c.loaded = .ok s) :
    store.perform c = (.ok (store.replace s).current, store.replace s) := by
  rw [perform_eq, h]
  rfl

theorem perform_error (store : PolicyStore) {c : Call} {e : ConfigError}
    (h : c.loaded = .error e) : store.perform c = (.error e, store) := by
  rw [perform_eq, h]
  rfl

theorem perform_fst_eq_error_iff (store : PolicyStore) {c : Call} {e : ConfigError} :
    (store.perform c).1 = .error e ↔ c.Refused e := by
  rw [perform_eq, ← Call.loaded_eq_error_iff]
  cases c.loaded <;> simp [grant]

/-! ### Histories -/

/-- What one may do with a store. -/
inductive Action where
  | call (c : Call)
  /-- Keep the policy that is in force at the moment. -/
  | hold

/-- The settings that are installed, if any are. -/
def Action.installed? : Action → Option PolicySettings
  | .call c => c.loaded.toOption
  | .hold   => none

/-- The settings that are installed, in order. -/
def installed (acts : List Action) : List PolicySettings := acts.filterMap (·.installed?)

/-- A store and the policies that have come out of it. -/
structure Past where
  store   : PolicyStore
  /-- Those that have been kept. -/
  held    : List Policy := []
  /-- Those with which calls have been answered. -/
  granted : List Policy := []

namespace Past

/-- What there is after one thing more. -/
def after (p : Past) : Action → Past
  | .call c =>
    let (r, store) := p.store.perform c
    { p with store, granted := p.granted ++ r.toOption.toList }
  | .hold   => { p with held := p.held ++ [p.store.current] }

/-- The policy can be seen, or could once be seen. -/
def Shows (p : Past) (policy : Policy) : Prop :=
  policy = p.store.current ∨ policy ∈ p.held ∨ policy ∈ p.granted

/-- What one thing more can change, where `installed?` are the settings it installs. -/
inductive Next (p : Past) : Option PolicySettings → Past → Prop where
  | holds : Next p none { p with held := p.held ++ [p.store.current] }
  | refuses : Next p none p
  | installs (s : PolicySettings) :
      Next p (some s) { p with
        store   := p.store.replace s
        granted := p.granted ++ [(p.store.replace s).current] }

theorem next_after (p : Past) (a : Action) : p.Next a.installed? (p.after a) := by
  cases a with
  | hold => exact .holds
  | call c =>
      rw [after, perform_eq, Action.installed?]
      cases c.loaded with
      | error e =>
          simp only [grant, Except.toOption, Option.toList_none, List.append_nil]
          exact .refuses
      | ok s => exact .installs s

end Past

/-- What there is after a number of things. -/
def past (s : PolicySettings) (acts : List Action) : Past :=
  acts.foldl Past.after { store := .new s }

/-- The store and all that has come out of it, told by the settings that have been installed. -/
structure Past.Records (s : PolicySettings) (installed : List PolicySettings) (p : Past) :
    Prop where
  /-- The policy in force is that of the last settings alone. -/
  current : p.store.current =
    .ofSettings (.ofNat (installed.length + 1)) (installed.getLast?.getD s)
  /-- Versions count on from that of the first policy, which is one. -/
  granted : p.granted = installed.mapIdx fun i t => .ofSettings (.ofNat (i + 2)) t
  held    : ∀ policy ∈ p.held, ∃ v t, policy = .ofSettings v t

theorem toNat_ofNat_succ {n : Nat} (h : n < 2 ^ 64 - 1) : (UInt64.ofNat (n + 1)).toNat = n + 1 :=
  UInt64.toNat_ofNat_of_lt' (by rw [UInt64.size]; omega)

namespace Past.Records

variable {s : PolicySettings} {ts : List PolicySettings} {p p' : Past}

theorem start : Records s [] { store := .new s } := ⟨rfl, rfl, nofun⟩

/-- The policy that is installed next. -/
theorem current_replace (h : Records s ts p) (t : PolicySettings) :
    (p.store.replace t).current = .ofSettings (.ofNat (ts.length + 2)) t := by
  have hv : p.store.current.version = .ofNat (ts.length + 1) := by
    rw [h.current]
    rfl
  rw [replace, hv, ← UInt64.ofNat_one, ← UInt64.ofNat_add]

theorem next {installed? : Option PolicySettings} (h : Records s ts p)
    (step : p.Next installed? p') : Records s (ts ++ installed?.toList) p' := by
  cases step with
  | holds =>
      rw [Option.toList_none, List.append_nil]
      refine ⟨h.current, h.granted, List.forall_mem_append.mpr ⟨h.held, ?_⟩⟩
      exact List.forall_mem_singleton.mpr ⟨_, _, h.current⟩
  | refuses =>
      rw [Option.toList_none, List.append_nil]
      exact h
  | installs t =>
      rw [Option.toList_some]
      refine ⟨?_, ?_, h.held⟩
      · rw [h.current_replace, List.length_append, List.getLast?_concat]
        rfl
      · rw [h.current_replace, h.granted, List.mapIdx_concat]

/-- A policy that can be seen is that of some settings. -/
theorem exists_of_shows {policy : Policy} (h : Records s ts p) (hp : p.Shows policy) :
    ∃ v t, policy = .ofSettings v t := by
  rcases hp with rfl | hp | hp
  · exact ⟨_, _, h.current⟩
  · exact h.held policy hp
  · rw [h.granted] at hp
    obtain ⟨i, hi, rfl⟩ := List.mem_mapIdx.mp hp
    exact ⟨_, _, rfl⟩

/-- The versions of all policies there have been count from one. -/
theorem versions (h : Records s ts p) :
    ((new s).current :: p.granted).map (·.version) =
      (List.range (ts.length + 1)).map fun i => UInt64.ofNat (i + 1) := by
  rw [h.granted]
  refine List.ext_getElem (by simp) fun i hi hj => ?_
  cases i with
  | zero => simp [new, Policy.ofSettings]
  | succ i =>
      rw [List.getElem_map, List.getElem_cons_succ, List.getElem_mapIdx, List.getElem_map,
        List.getElem_range]
      rfl

/-- Versions ascend as long as they do not start over. -/
theorem ascending (h : Records s ts p) (hn : ts.length < 2 ^ 64 - 1) :
    (((new s).current :: p.granted).map (·.version)).Pairwise (· < ·) := by
  rw [h.versions, List.pairwise_map]
  refine List.pairwise_lt_range.imp_of_mem fun {i j} hi hj hij => ?_
  rw [List.mem_range] at hi hj
  rw [UInt64.lt_iff_toNat_lt, toNat_ofNat_succ (by omega), toNat_ofNat_succ (by omega)]
  omega

end Past.Records

section Past

variable (s : PolicySettings) (acts : List Action)

theorem past_snoc (a : Action) : past s (acts ++ [a]) = (past s acts).after a := by
  rw [past, List.foldl_append]
  rfl

theorem installed_snoc (a : Action) :
    installed (acts ++ [a]) = installed acts ++ a.installed?.toList := by
  cases h : a.installed? <;> simp [installed, h]

theorem records_past : Past.Records s (installed acts) (past s acts) := by
  induction acts using List.reverseRecOn with
  | nil => exact .start
  | append_singleton acts a ih =>
      rw [past_snoc, installed_snoc]
      exact ih.next (Past.next_after _ a)

theorem length_granted : (past s acts).granted.length = (installed acts).length := by
  rw [(records_past s acts).granted, List.length_mapIdx]

/-- What has been kept stays as it is. -/
theorem held_past (more : List Action) :
    (past s acts).held <+: (past s (acts ++ more)).held := by
  induction more using List.reverseRecOn with
  | nil => exact (List.append_nil acts).symm ▸ List.prefix_rfl
  | append_singleton more a ih =>
      rw [← List.append_assoc, past_snoc]
      have hn := (past s (acts ++ more)).next_after a
      generalize a.installed? = o, (past s (acts ++ more)).after a = p at hn
      cases hn with
      | holds => exact ih.trans (List.prefix_append _ _)
      | refuses => exact ih
      | installs t => exact ih

/-! ### The law -/

/-- All there is to say about a store and what has come out of it. -/
structure Lawful : Prop where
  /-- The version counts the calls that succeeded, and the first policy. -/
  version : (past s acts).store.current.version.toNat = 1 + (past s acts).granted.length
  /-- Each success was answered with the policy of its own settings. -/
  answered : (past s acts).granted =
    (installed acts).mapIdx fun i t => .ofSettings (.ofNat (i + 2)) t
  /-- Each success was answered with a greater version than all before. -/
  ascending : (((new s).current :: (past s acts).granted).map (·.version)).Pairwise (· < ·)
  /-- The policy in force is that of the last success alone, or the first one. -/
  current : (past s acts).store.current =
    .ofSettings (past s acts).store.current.version ((installed acts).getLast?.getD s)
  /-- A call that loads settings installs their policy and answers with it. -/
  succeeds : ∀ (c : Call) (t : PolicySettings), c.loaded = .ok t →
    (past s acts).store.perform c =
      (.ok (.ofSettings ((past s acts).store.current.version + 1) t),
        ⟨.ofSettings ((past s acts).store.current.version + 1) t⟩)
  /-- A document that is refused is answered with its own error, and nothing changes. -/
  reload : ∀ (document : String) (e : ConfigError), Settings.ofDocument document = .error e →
    (past s acts).store.perform (.reload document) = (.error e, (past s acts).store)
  /-- Sources that are refused are answered with their own error, and nothing changes. -/
  reloadFrom : ∀ (fs : FileSystem) (path : String) (vs : Config.Variables) (e : ConfigError),
    Settings.load (fs.document path) vs = .error e →
      (past s acts).store.perform (.reloadFrom fs path vs) = (.error e, (past s acts).store)
  /-- Calls fail at the layer or at the first section that does not stand, and nowhere else. -/
  fails : ∀ (c : Call) (e : ConfigError),
    ((past s acts).store.perform c).1 = .error e ↔ c.Refused e
  /-- A policy that was kept is still there, at its place and as it was. -/
  held : ∀ before after : List Action, acts = before ++ .hold :: after →
    ∃ later, (past s acts).held =
      (past s before).held ++ (past s before).store.current :: later
  /-- No policy that can be seen, or could once be seen, shows more of a payload than is ever
  captured. -/
  limit : ∀ policy : Policy, (past s acts).Shows policy → policy.payloadLimit ≤ 65536

/-- **Every history is lawful**, as long as versions do not start over. -/
theorem history_lawful (h : (past s acts).granted.length < 2 ^ 64 - 1) : Lawful s acts := by
  have hr : Past.Records s (installed acts) (past s acts) := records_past s acts
  rw [length_granted] at h
  exact {
    version := by
      rw [hr.current, length_granted, Nat.add_comm 1]
      exact toNat_ofNat_succ h
    answered := hr.granted
    ascending := hr.ascending h
    current := by
      rw [hr.current]
      rfl
    succeeds := fun c t hc => perform_ok _ hc
    reload := fun document e he => perform_error _ (by rw [Call.loaded, he]; rfl)
    reloadFrom := fun fs path vs e he => perform_error _ (by rw [Call.loaded, he]; rfl)
    fails := fun c e => perform_fst_eq_error_iff _
    held := by
      rintro before after rfl
      obtain ⟨later, hl⟩ := held_past s (before ++ [.hold]) after
      refine ⟨later, ?_⟩
      rw [← List.append_cons, past_snoc] at hl
      rw [← hl, List.append_cons]
      rfl
    limit := fun policy hp => by
      obtain ⟨v, t, rfl⟩ := hr.exists_of_shows hp
      exact Nat.min_le_right _ _ }

end Past

/-- A policy kept, another installed, a document refused, and a last one installed. -/
theorem history_lawful_refused :
    (past {} [.hold, .call (.replace { enabled := false }), .call (.reload "[policy\n"),
      .call (.reload "[policy]\nverbose = true"), .hold]).granted.length < 2 ^ 64 - 1 ∧
    Lawful {} [.hold, .call (.replace { enabled := false }), .call (.reload "[policy\n"),
      .call (.reload "[policy]\nverbose = true"), .hold] := by
  have h : (past {} [.hold, .call (.replace { enabled := false }), .call (.reload "[policy\n"),
      .call (.reload "[policy]\nverbose = true"), .hold]).granted.length < 2 ^ 64 - 1 := by
    decide +kernel
  exact ⟨h, history_lawful _ _ h⟩

end PolicyStore

end PacketLog
