import PacketLog.Proofs.Spool
import PacketLog.Watcher

/-!
# Proofs — Refinement

What an intake does in a run in which events come in, policies change and others take lines out
of the queue, in any order.

* `Intake.perform_conserves`: no action makes a line appear or disappear.
* `Intake.intake_refines`: at every point of every run the next event is filtered exactly if the
  policy in force keeps nothing of it, and otherwise its line is put at the end of the queue or
  dropped, as there is room or not.  The lines taken out so far and those in the queue are the
  lines of the queued events in order, and the counters are the numbers of what became of the
  events.
-/

namespace PacketLog.Intake

/-- What one may do with an intake. -/
inductive Action where
  | event (e : Event)
  /-- Install the policy of a document, unless it is refused. -/
  | reload (document : String)
  /-- Install the policy of the document at a path, unless it is refused. -/
  | reloadFrom (fs : FileSystem) (path : String) (vs : Config.Variables)
  | replace (s : Config.PolicySettings)
  | drain
  | drainUpTo (n : Nat)

/-- The event that is handed in, if one is. -/
def Action.event? : Action → Option Event
  | .event e => some e
  | _        => none

/-- The policy an action is to install, or why there is none, if that is what it is about. -/
def Action.loaded? : Action → Option (Except Config.ConfigError Config.PolicySettings)
  | .reload document       => some ((Config.Settings.ofDocument document).map (·.policy))
  | .reloadFrom fs path vs => some ((Config.Settings.load (fs.document path) vs).map (·.policy))
  | .replace s             => some (.ok s)
  | _                      => none

/-- An intake into an empty queue. -/
def new (store : PolicyStore) (capacity : Nat) : Intake := ⟨store, { queue := .new capacity }⟩

/-- The intake with another queue. -/
def withQueue (i : Intake) (q : Queue LogLine) : Intake :=
  { i with spool := { i.spool with queue := q } }

/-- The intake after a policy has been installed or refused.  One that is installed takes the next
version. -/
def install (i : Intake) : Except Config.ConfigError Config.PolicySettings → Intake
  | .ok s    => { i with store := ⟨.ofSettings (i.store.current.version + 1) s⟩ }
  | .error _ => i

/-- Do it, and see what happens. -/
def perform (i : Intake) : Action → Occurrence × Intake
  | .event e => (.event i.store.current e (i.accept e).1, (i.accept e).2)
  | .reload document =>
    (.other, { i with store := (i.store.reload (Config.Settings.ofDocument document)).2 })
  | .reloadFrom fs path vs =>
    (.other, { i with store := (i.store.reload (Config.Settings.load (fs.document path) vs)).2 })
  | .replace s => (.other, { i with store := i.store.replace s })
  | .drain => (.drain i.spool.queue.takeAll.1, i.withQueue i.spool.queue.takeAll.2)
  | .drainUpTo n => (.drain (i.spool.queue.take n).1, i.withQueue (i.spool.queue.take n).2)

/-- Do one thing after the other. -/
def run (i : Intake) : List Action → Trace × Intake
  | []          => ([], i)
  | act :: acts =>
    let (o, i) := i.perform act
    let (tr, i) := i.run acts
    (o :: tr, i)

/-! ### One action -/

variable (i : Intake) (act : Action)

/-- Nothing but the policy in force changes when one is installed, and nothing at all when one is
refused. -/
theorem perform_of_loaded? {act : Action}
    {loaded : Except Config.ConfigError Config.PolicySettings} (h : act.loaded? = some loaded) :
    i.perform act = (.other, i.install loaded) := by
  cases act with
  | reload document =>
      cases h
      rw [perform]
      cases Config.Settings.ofDocument document <;> rfl
  | reloadFrom fs path vs =>
      cases h
      rw [perform]
      cases Config.Settings.load (fs.document path) vs <;> rfl
  | replace s =>
      cases h
      rfl
  | _ => cases h

theorem spool_install (loaded : Except Config.ConfigError Config.PolicySettings) :
    (i.install loaded).spool = i.spool := by
  cases loaded <;> rfl

/-- **No action makes a line appear or disappear.** -/
theorem perform_conserves :
    Spool.Conserves i.spool (i.perform act).1 (i.perform act).2.spool := by
  cases act with
  | event e => exact (Spool.admission_accept i.spool i.store.current e).conserves
  | drain =>
      -- to take all is to take as many as there are
      have h := Spool.conserves_take (s := i.spool) (n := i.spool.queue.size) (.inl rfl)
      rwa [← Queue.takeAll_eq_take] at h
  | drainUpTo n => exact Spool.conserves_take (.inl rfl)
  | _ => exact Spool.conserves_other _

theorem perform_byEvents : Trace.ByEvents [(i.perform act).1] := by
  cases act with
  | event e => exact .of_admission (Spool.admission_accept i.spool i.store.current e)
  | _ => exact ⟨rfl, rfl⟩

/-- No writer is at work. -/
theorem perform_unwritten :
    (i.perform act).1.removed = (i.perform act).1.drained ∧ (i.perform act).1.givenUp = [] := by
  cases act <;> exact ⟨List.append_nil _, rfl⟩

theorem event?_perform : (i.perform act).1.event? = act.event? := by
  cases act <;> rfl

theorem capacity_perform :
    (i.perform act).2.spool.queue.capacity = i.spool.queue.capacity := by
  cases act with
  | event e => exact (Spool.admission_accept i.spool i.store.current e).capacity
  | _ => rfl

/-! ### Runs -/

variable (acts : List Action)

theorem run_perform :
    Run (fun i o i' => ∃ act, i.perform act = (o, i')) i (i.run acts).1 (i.run acts).2 := by
  induction acts generalizing i with
  | nil => exact .start
  | cons act acts ih => exact (Run.one ⟨act, rfl⟩).trans (ih _)

theorem byEvents_run : (i.run acts).1.ByEvents := by
  induction acts generalizing i with
  | nil => exact .nil
  | cons act acts ih => exact (i.perform_byEvents act).append (ih _)

theorem unwritten_run :
    (i.run acts).1.flatMap (·.removed) = (i.run acts).1.flatMap (·.drained) ∧
      (i.run acts).1.flatMap (·.givenUp) = [] := by
  induction acts generalizing i with
  | nil => exact ⟨rfl, rfl⟩
  | cons act acts ih =>
      obtain ⟨hr, hg⟩ := i.perform_unwritten act
      simp [run, hr, hg, ih]

/-- Every event that is handed in is seen, in order. -/
theorem events_run : (i.run acts).1.filterMap (·.event?) = acts.filterMap (·.event?) := by
  induction acts generalizing i with
  | nil => rfl
  | cons act acts ih => simp only [run, List.filterMap_cons, event?_perform, ih]

theorem capacity_run : (i.run acts).2.spool.queue.capacity = i.spool.queue.capacity := by
  induction acts generalizing i with
  | nil => rfl
  | cons act acts ih => exact (ih _).trans (i.capacity_perform act)

theorem balanced_run (store : PolicyStore) (capacity : Nat) (acts : List Action) :
    ((new store capacity).run acts).2.spool.Balanced ((new store capacity).run acts).1 := by
  apply Spool.balanced_of_run
  refine ((new store capacity).run_perform acts).map (·.spool) ?_
  rintro i o i' ⟨act, h⟩
  have hc := i.perform_conserves act
  rwa [h] at hc

/-! ### The plain reading -/

/-- What an intake does with an event, told by the record the policy in force makes of it and by
the room in the queue. -/
structure Judges (i : Intake) (e : Event) : Prop where
  filtered : (i.accept e).1 = .filtered ↔ i.store.current.keep? e.record = none
  ignored  : i.store.current.keep? e.record = none → (i.accept e).2.spool.queue = i.spool.queue
  queued   : ∀ r, i.store.current.keep? e.record = some r →
    i.spool.queue.size < i.spool.queue.capacity →
      (i.accept e).1 = .queued ∧ (i.accept e).2.spool.queue.items =
        i.spool.queue.items ++ [r.line i.store.current.format i.store.current.verbose]
  dropped  : ∀ r, i.store.current.keep? e.record = some r →
    i.spool.queue.capacity ≤ i.spool.queue.size →
      (i.accept e).1 = .dropped ∧ (i.accept e).2.spool.queue.items = i.spool.queue.items

theorem judges (e : Event) : i.Judges e :=
  have h := Spool.admission_accept i.spool i.store.current e
  ⟨h.filtered_iff, h.of_none, fun _ => h.of_room, fun _ => h.of_full⟩

/-- **An intake refines its plain reading, at every point of every run.** -/
theorem intake_refines (store : PolicyStore) (capacity : Nat) (acts : List Action) :
    let tr := ((new store capacity).run acts).1
    let i := ((new store capacity).run acts).2
    (i.spool.queue.capacity = max capacity 1 ∧ ∀ e, i.Judges e) ∧
    (tr.filterMap (·.event?) = acts.filterMap (·.event?) ∧
      tr.flatMap (·.drained) ++ i.spool.queue.items = tr.flatMap (·.accepted)) ∧
    (i.spool.counters.seen = .ofNat tr.outcomes.length ∧
      i.spool.counters.filtered = .ofNat (tr.outcomes.count .filtered) ∧
      i.spool.counters.queued = .ofNat (tr.outcomes.count .queued) ∧
      i.spool.counters.dropped = .ofNat (tr.outcomes.count .dropped) ∧
      tr.outcomes.length = tr.outcomes.count .filtered + tr.outcomes.count .queued +
        tr.outcomes.count .dropped ∧
      i.spool.counters.dropped = i.spool.queue.refused) ∧
    ∀ act loaded, act.loaded? = some loaded →
      i.perform act = (.other, i.install loaded) ∧ (i.install loaded).spool = i.spool := by
  intro tr i
  have hb : i.spool.Balanced tr := balanced_run store capacity acts
  have he : tr.ByEvents := byEvents_run _ acts
  obtain ⟨hr, hg⟩ : tr.flatMap (·.removed) = tr.flatMap (·.drained) ∧
      tr.flatMap (·.givenUp) = [] := unwritten_run _ acts
  have hd : i.spool.counters.dropped = .ofNat (tr.outcomes.count .dropped) := by
    rw [hb.tally.dropped, hg]
    rfl
  refine ⟨⟨capacity_run _ acts, i.judges⟩, ⟨events_run _ acts, ?_⟩,
    ⟨hb.tally.seen, hb.tally.filtered, hb.tally.queued, hd, tr.length_outcomes, ?_⟩,
    fun act loaded h => ⟨i.perform_of_loaded? h, i.spool_install _⟩⟩
  · rw [← hr]
    exact hb.items.symm
  · rw [hd, hb.refused, he.refused]

end PacketLog.Intake
