import PacketLog.Proofs.Conservation

/-!
# Proofs — Wakening

No line lies in the queue with nothing that makes the writer look for it.

In `Writer.Step` a line is offered in one step, and a permit is all there is between it and the
writer.  A `Sleeper` is a writer of which more is seen.  A line is first put in the queue, and then
announced; the writer may listen when it is idle, be called, and go on only later; and it may be
told to end anywhere in between.

Of the permit this is assumed.  Nobody but the writer listens.  To announce a line is to call the
writer if it listens, and to leave one permit otherwise, however many there were.  A writer that
turns away after it has been called leaves the permit of that call behind.

* `Sleeper.attentive_of_run`: an idle writer with lines in its queue has a permit, or has been
  called, or is about to hear of them.
* `Sleeper.exists_step_of_roused`: such a writer goes on.
* `Sleeper.no_line_unheard`: if there is nothing of the kind then no line is queued or in flight.
* `Sleeper.exists_run`: a sleeper does all that a writer does.
-/

namespace PacketLog

/-- The writer with a permit in its queue, or with none. -/
def Writer.withPermit (w : Writer) (permit : Bool) : Writer :=
  w.withQueue { w.queue with permit }

/-- What an idle writer hears. -/
inductive Ear where
  /-- It does not listen. -/
  | away
  | listening
  /-- It has been called, and has not gone on yet. -/
  | called
deriving DecidableEq

/-- A writer, with all there is between a line in the queue and a writer that goes on. -/
structure Sleeper where
  writer : Writer
  ear    : Ear := .away
  /-- How many lines have been queued and are still to be announced. -/
  unannounced : Nat := 0

namespace Sleeper

/-- The queue the writer takes lines from. -/
def queue (z : Sleeper) : Queue LogLine := z.writer.queue

/-! ### Steps -/

/-- Put a line in the queue if there is room for it, and say nothing of it. -/
def put (z : Sleeper) (line : LogLine) : Sleeper :=
  match z.queue.offer line with
  | (true, q)  =>
    { z with
      writer      := (z.writer.withQueue q).withPermit z.queue.permit
      unannounced := z.unannounced + 1 }
  | (false, q) => { z with writer := z.writer.withQueue q }

/-- Call the writer if it listens, and leave a permit otherwise. -/
def announce (z : Sleeper) : Sleeper :=
  match z.ear with
  | .listening => { z with ear := .called, unannounced := z.unannounced - 1 }
  | _          =>
    { z with writer := z.writer.withPermit true, unannounced := z.unannounced - 1 }

/-- Listen no more.  A call that has not been followed leaves its permit behind. -/
def turnAway (z : Sleeper) : Sleeper :=
  match z.ear with
  | .called => { z with writer := z.writer.withPermit true, ear := .away }
  | _       => { z with ear := .away }

/-- A step of a writer or of those around it. -/
inductive Step (plan : Plan) (z : Sleeper) : Occurrence → Sleeper → Prop where
  | put (line : LogLine) : Step plan z (.offer line (z.queue.offer line).1) (z.put line)
  | announce (h : 0 < z.unannounced) : Step plan z .other z.announce
  /-- Someone else takes lines out of the queue. -/
  | drain (n : Nat) :
      Step plan z (.drain (z.queue.take n).1)
        { z with writer := z.writer.withQueue (z.queue.take n).2 }
  /-- The writer goes on, for whatever reason. -/
  | work {s : Stimulus} {w' : Writer} (ha : z.ear = .away)
      (h : z.writer.step? plan s = some w') :
      Step plan z (z.writer.shows plan s) { z with writer := w' }
  /-- It finds a permit, and may have been told to end since it last asked about that. -/
  | find (hp : z.writer.phase = .idle) (ha : z.ear = .away) (hq : z.queue.permit = true) :
      Step plan z .other
        { z with writer := { z.writer.withPermit false with phase := .taking } }
  /-- It finds no permit, and begins to listen. -/
  | listen (hp : z.writer.phase = .idle) (ha : z.ear = .away) (hq : z.queue.permit = false) :
      Step plan z .other { z with ear := .listening }
  /-- It goes on because it has been called. -/
  | wake (hp : z.writer.phase = .idle) (ha : z.ear = .called) :
      Step plan z .other { z with writer := { z.writer with phase := .taking }, ear := .away }
  /-- It listens no more, for it has been told to end. -/
  | leave (hc : z.writer.cancelled = true) : Step plan z .other z.turnAway
  | cancel : Step plan z .cancel { z with writer := z.writer.cancel }
  /-- The writer is stopped, wherever it is. -/
  | abort (h : z.writer.hasEnded = false) :
      Step plan z .other { z.turnAway with writer := z.turnAway.writer.stop .aborted }

end Sleeper

/-! ### The books -/

namespace Writer

/-- No line depends on the permit. -/
theorem Lawful.withPermit {w w' : Writer} {o : Occurrence} (h : Lawful w o w') (permit : Bool) :
    Lawful w o (w'.withPermit permit) where
  spool     := ⟨h.spool.items, h.spool.counters, h.spool.refused⟩
  hands     := h.hands
  fresh     := h.fresh
  inFlight  := h.inFlight
  cancelled := h.cancelled
  ending    := h.ending
  finished  := h.finished

theorem lawful_taking {w : Writer} (hp : w.phase = .idle) :
    Lawful w .other { w with phase := .taking } :=
  .quiet (Spool.conserves_other _) (by rw [hp]; rfl) rfl rfl .inl nofun

/-- A writer becomes idle only when it has found its queue empty. -/
theorem Work.items_of_idle {plan : Plan} {w w' : Writer} {s : Stimulus} {o : Occurrence}
    (h : Work plan w s o w') (hp : w'.phase = .idle) : w'.queue.items = [] := by
  cases h with
  | rest _ hq _ => exact hq
  | write _ =>
      rename_i rest _ _
      cases rest <;> cases hp
  | _ => cases hp

end Writer

namespace Sleeper

open Writer (Lawful Balanced FoundEmpty)

variable {plan : Plan} {capacity : Nat} {z z' : Sleeper} {o : Occurrence} {tr : Trace}

theorem lawful_put (z : Sleeper) (line : LogLine) :
    Lawful z.writer (.offer line (z.queue.offer line).1) (z.put line).writer := by
  have h : Lawful z.writer (.offer line (z.queue.offer line).1)
      (z.writer.withQueue (z.queue.offer line).2) := .offer z.writer line
  revert h
  unfold put
  rcases z.queue.offer line with ⟨_ | _, q⟩
  · exact id
  · exact (·.withPermit _)

theorem lawful_announce (z : Sleeper) : Lawful z.writer .other z.announce.writer := by
  unfold announce
  split
  · exact .refl _
  · exact (Lawful.refl _).withPermit true

theorem lawful_turnAway (z : Sleeper) : Lawful z.writer .other z.turnAway.writer := by
  unfold turnAway
  split
  · exact (Lawful.refl _).withPermit true
  · exact .refl _

theorem Step.lawful (h : Step plan z o z') : Lawful z.writer o z'.writer := by
  cases h with
  | put line => exact lawful_put z line
  | announce h => exact lawful_announce z
  | drain n => exact .drain z.writer n
  | work ha h => exact Writer.lawful_of_step? h
  | find hp ha hq => exact (Writer.lawful_taking hp).withPermit false
  | listen hp ha hq => exact .refl _
  | wake hp ha => exact Writer.lawful_taking hp
  | leave hc => exact lawful_turnAway z
  | cancel => exact .cancel _
  | abort h =>
      have h : Lawful z.writer .other (z.writer.stop .aborted) := Writer.lawful_stop nofun
      unfold turnAway
      split
      · exact h.withPermit true
      · exact h

/-- In these steps no events are handed in, only lines. -/
theorem Step.outcome? (h : Step plan z o z') : o.outcome? = none := by
  cases h with
  | work ha h => exact (Writer.work_of_step? h).inward.1
  | _ => rfl

/-! ### Attention -/

/-- Something will make the writer look into its queue. -/
inductive Roused (z : Sleeper) : Prop where
  | permit (h : z.queue.permit = true)
  | called (h : z.ear = .called)
  | unannounced (h : 0 < z.unannounced)

/-- What a writer that is idle has to know. -/
structure Attentive (z : Sleeper) : Prop where
  /-- Only a writer that is idle listens. -/
  idle : z.ear ≠ .away → z.writer.phase = .idle
  /-- A writer that found a permit would not listen, and it is called when one comes. -/
  quiet : z.ear = .listening → z.queue.permit = false
  roused : z.writer.phase = .idle → z.queue.items ≠ [] → z.Roused

namespace Attentive

theorem start : Attentive { writer := { spool := { queue := .new capacity } } } :=
  ⟨nofun, nofun, fun _ h => absurd rfl h⟩

/-- A writer that is not idle need not listen. -/
theorem of_busy (ha : z.ear = .away) (hp : z.writer.phase ≠ .idle) : Attentive z :=
  ⟨fun h => absurd ha h, fun h => (by rw [ha] at h; cases h), fun h => absurd h hp⟩

/-- It matters only whether the queue holds lines, and not which. -/
theorem of_eq (h : Attentive z) (hp : z'.writer.phase = z.writer.phase) (ha : z'.ear = z.ear)
    (hu : z'.unannounced = z.unannounced) (hq : z'.queue.permit = z.queue.permit)
    (hi : z.queue.items = [] → z'.queue.items = []) : Attentive z' where
  idle hn := hp.trans (h.idle (ha ▸ hn))
  quiet hl := hq.trans (h.quiet (ha ▸ hl))
  roused hd hn := by
    cases h.roused (hp ▸ hd) (mt hi hn) with
    | permit h => exact .permit (hq.trans h)
    | called h => exact .called (ha.trans h)
    | unannounced h => exact .unannounced (hu ▸ h)

theorem put (h : Attentive z) (line : LogLine) : Attentive (z.put line) := by
  unfold Sleeper.put
  cases hf : z.queue.isFull with
  | true =>
      rw [Queue.offer_of_full line hf]
      exact h.of_eq rfl rfl rfl rfl id
  | false =>
      rw [Queue.offer_of_room line hf]
      exact ⟨h.idle, h.quiet, fun _ _ => .unannounced (Nat.succ_pos _)⟩

theorem announce (h : Attentive z) : Attentive z.announce := by
  unfold Sleeper.announce
  split
  · rename_i ha
    exact ⟨fun _ => h.idle (by rw [ha]; nofun), nofun, fun _ _ => .called rfl⟩
  · rename_i ha
    exact ⟨h.idle, fun hl => absurd hl ha, fun _ _ => .permit rfl⟩

theorem drain (h : Attentive z) (n : Nat) :
    Attentive { z with writer := z.writer.withQueue (z.queue.take n).2 } :=
  h.of_eq rfl rfl rfl rfl fun hi => by
    change z.queue.items.drop n = []
    rw [hi, List.drop_nil]

theorem work {s : Stimulus} {w' : Writer} (ha : z.ear = .away)
    (hw : z.writer.step? plan s = some w') : Attentive { z with writer := w' } where
  idle hn := absurd ha hn
  quiet hl := by
    rw [show z.ear = .listening from hl] at ha
    cases ha
  roused hp hi := absurd ((Writer.work_of_step? hw).items_of_idle hp) hi

theorem listen (h : Attentive z) (hp : z.writer.phase = .idle) (ha : z.ear = .away)
    (hq : z.queue.permit = false) : Attentive { z with ear := .listening } where
  idle _ := hp
  quiet _ := hq
  roused _ hi := by
    cases h.roused hp hi with
    | permit h => exact .permit h
    | called h =>
        rw [ha] at h
        cases h
    | unannounced hu => exact .unannounced hu

theorem turnAway (h : Attentive z) : Attentive z.turnAway := by
  unfold Sleeper.turnAway
  split
  · exact ⟨nofun, nofun, fun _ _ => .permit rfl⟩
  · rename_i hn
    exact ⟨nofun, nofun, fun hp hi => by
      cases h.roused hp hi with
      | permit hq => exact .permit hq
      | called ha => exact absurd ha hn
      | unannounced hu => exact .unannounced hu⟩

/-- **Every step leaves the writer attentive.** -/
theorem next (h : Attentive z) (step : Step plan z o z') : Attentive z' := by
  cases step with
  | put line => exact h.put line
  | announce _ => exact h.announce
  | drain n => exact h.drain n
  | work ha hw => exact work ha hw
  | find hp ha hq => exact of_busy ha nofun
  | listen hp ha hq => exact h.listen hp ha hq
  | wake hp ha => exact of_busy rfl nofun
  | leave hc => exact h.turnAway
  | cancel => exact h.of_eq rfl rfl rfl rfl id
  | abort _ => exact of_busy (by unfold Sleeper.turnAway; split <;> rfl) nofun

end Attentive

theorem attentive_of_run
    (h : Run (Step plan) { writer := { spool := { queue := .new capacity } } } tr z) :
    Attentive z := by
  induction h with
  | start => exact .start
  | more _ step ih => exact ih.next step

/-- An idle writer that something will make look into its queue does so in one step of its own, if
there is nothing that others still have to say. -/
theorem exists_step_of_roused (h : Attentive z) (hp : z.writer.phase = .idle) (hr : z.Roused)
    (hu : z.unannounced = 0) :
    ∃ z', Step plan z .other z' ∧ z'.writer.phase = .taking ∧
      z'.queue.items = z.queue.items := by
  cases hr with
  | called ha => exact ⟨_, .wake hp ha, rfl, rfl⟩
  | unannounced hn => omega
  | permit hq =>
      cases ha : z.ear with
      | away => exact ⟨_, .find hp ha hq, rfl, rfl⟩
      | called => exact ⟨_, .wake hp ha, rfl, rfl⟩
      | listening =>
          rw [h.quiet ha] at hq
          cases hq

/-! ### The law -/

/-- **No line is left unheard.** -/
theorem no_line_unheard
    (h : Run (Step plan) { writer := { spool := { queue := .new capacity } } } tr z) :
    (z.ear = .listening → z.writer.phase = .idle) ∧
    (z.writer.phase = .idle → ¬ z.Roused →
      z.queue.items = [] ∧ z.writer.inFlight = 0 ∧
        (tr.flatMap (·.accepted)).Perm
          (tr.flatMap (·.drained) ++ (tr.flatMap (·.taken) ++ tr.flatMap (·.givenUp)))) ∧
    (z.writer.spool.counters.written = .ofNat (tr.flatMap (·.taken)).length ∧
      z.writer.spool.counters.dropped = .ofNat (tr.flatMap (·.givenUp)).length) ∧
    ∀ lines, z.writer.phase = .ended .finished lines → FoundEmpty tr z.writer := by
  have ha : Attentive z := attentive_of_run h
  have hb : Balanced tr z.writer := Writer.balanced_of_run (h.map (·.writer) Step.lawful)
  refine ⟨fun hl => ha.idle (by rw [hl]; nofun), fun hp hr => ?_,
    ⟨hb.spool.tally.written, ?_⟩, fun lines hf => (hb.finished lines hf).2⟩
  · have hq : z.writer.spool.queue.items = [] := by_contra fun hi => hr (ha.roused hp hi)
    have hu : z.writer.phase.unsettled = [] := by rw [hp]; rfl
    refine ⟨hq, by rw [hb.inFlight, hu]; rfl, ?_⟩
    have hi := hb.spool.items
    have hh := hb.hands
    rw [hq, List.append_nil] at hi
    rw [hu, List.append_nil] at hh
    rw [hi]
    exact (Trace.removed_perm tr).trans (hh ▸ (Trace.settled_perm tr).append_left _)
  · simpa [h.outcomes_eq_nil Step.outcome?] using hb.spool.tally.dropped

/-- A writer that listens, is called, writes a line and listens again. -/
theorem no_line_unheard_listening :
    ∃ (plan : Plan) (tr : Trace) (z : Sleeper),
      Run (Step plan) { writer := { spool := { queue := .new 2 } } } tr z ∧
        z.ear = .listening ∧ ¬ z.Roused ∧ z.queue.items = [] ∧
        z.writer.spool.counters.written = 1 := by
  let line : LogLine := { kind := .ping, client := "c1", time := ⟨0, 0⟩, text := "" }
  let plan : Plan :=
    { batchSize := 1, retry := fun _ => { maxAttempts := 1, delay? := fun _ => none } }
  have run : Run (Step plan) { writer := { spool := { queue := .new 2 } } } _ _ :=
    (((((((Run.one (.listen rfl rfl rfl)).more (.put line)).more (.announce Nat.one_pos)).more
      (.wake rfl rfl)).more (.work (s := .nothing) rfl rfl)).more
      (.work (s := .reply .ok) rfl rfl)).more (.work (s := .reply .ok) rfl rfl)).more
      (.work (s := .nothing) rfl rfl) |>.more (.listen rfl rfl rfl)
  obtain ⟨hl, hu, ⟨hw, -⟩, -⟩ := no_line_unheard run
  refine ⟨plan, _, _, run, rfl, ?silent, (hu (hl rfl) ?silent).1, hw⟩
  rintro (h | h | h) <;> cases h

/-! ### The coarser steps -/

/-- A line that is put in the queue of a writer that does not listen, and then announced, has been
offered. -/
theorem exists_run_offer (w : Writer) (line : LogLine) :
    ∃ tr, Run (Step plan) { writer := w } tr
      { writer := w.withQueue (w.queue.offer line).2 } := by
  have hp : Run (Step plan) { writer := w } _ _ := .one (.put line)
  unfold put queue at hp
  cases hf : w.queue.isFull with
  | true =>
      rw [Queue.offer_of_full line hf] at hp ⊢
      exact ⟨_, hp⟩
  | false =>
      rw [Queue.offer_of_room line hf] at hp ⊢
      exact ⟨_, hp.more (.announce Nat.one_pos)⟩

/-- A sleeper does all that a writer does, as the writer does it. -/
theorem exists_run {w₀ w : Writer} (h : Run (Writer.Step plan) w₀ tr w) :
    ∃ tr', Run (Step plan) { writer := w₀ } tr' { writer := w } := by
  induction h with
  | start => exact ⟨_, .start⟩
  | more _ step ih =>
      obtain ⟨tr', ih⟩ := ih
      cases step with
      | offer line =>
          obtain ⟨tr, h⟩ := exists_run_offer _ line
          exact ⟨_, ih.trans h⟩
      | drain n => exact ⟨_, ih.more (.drain n)⟩
      | work h => exact ⟨_, ih.more (.work rfl h)⟩
      | cancel => exact ⟨_, ih.more .cancel⟩
      | abort h => exact ⟨_, ih.more (.abort h)⟩

end Sleeper

/-- A writer that is idle with no permit in its queue has no line there. -/
theorem Writer.items_of_idle {plan : Plan} {capacity : Nat} {tr : Trace} {w : Writer}
    (h : Run (Step plan) { spool := { queue := .new capacity } } tr w) (hp : w.phase = .idle)
    (hq : w.queue.permit = false) : w.queue.items = [] := by
  obtain ⟨_, h⟩ := Sleeper.exists_run h
  by_contra hi
  cases (Sleeper.attentive_of_run h).roused hp hi with
  | permit h =>
      rw [show w.queue.permit = true from h] at hq
      cases hq
  | called h => cases h
  | unannounced h => cases h

end PacketLog
