import PacketLog.Proofs.Conservation
import PacketLog.Session

/-!
# Proofs — Accounting

What the counters of a session say once it has stopped.

* `Session.run_of_timeline`: what the writer does on a clock with a sink is a run of steps.
* `Writer.accounted_close`: the counters of a closed writer account for every event, however the
  writer came to its end.
* `Session.events_accounted`: every event handed in before a session is stopped is counted as seen,
  and then once as filtered, written or dropped.
-/

namespace PacketLog

namespace Session

variable {σ : Type}

/-- A step of a session at work. -/
inductive Step (s : Session σ) : Occurrence → Session σ → Prop where
  | event (e : Event) : Step s (.event s.store.current e (s.accept e).1) (s.accept e).2
  /-- A policy is installed, unless it is refused. -/
  | reload (loaded : Except Config.ConfigError Config.Settings) :
      Step s .other { s with store := (s.store.reload loaded).2 }
  /-- The writer goes on, for whatever reason. -/
  | work {st : Stimulus} {t : Timeline σ} (h : s.timeline.writer.step? s.plan st = some t.writer) :
      Step s (s.timeline.writer.shows s.plan st) { s with timeline := t }
  /-- Time passes. -/
  | pass {t : Timeline σ} (h : t.writer = s.timeline.writer) :
      Step s .other { s with timeline := t }

/-- Tell the writer to end. -/
def cancel (s : Session σ) : Session σ :=
  { s with timeline := { s.timeline with writer := s.timeline.writer.cancel } }

theorem Step.lawful {s s' : Session σ} {o : Occurrence} (h : Step s o s') :
    Writer.Lawful s.timeline.writer o s'.timeline.writer := by
  cases h with
  | event e => exact .outside (Spool.admission_accept s.spool s.store.current e).conserves rfl nofun
  | reload loaded => exact .refl _
  | work h => exact Writer.lawful_of_step? h
  | pass h => exact h ▸ .refl _

theorem Step.byEvents {s s' : Session σ} {o : Occurrence} (h : Step s o s') :
    Trace.ByEvents [o] := by
  cases h with
  | event e => exact .of_admission (Spool.admission_accept s.spool s.store.current e)
  | reload loaded => exact ⟨rfl, rfl⟩
  | work h =>
      obtain ⟨ho, ha, hr, -⟩ := (Writer.work_of_step? h).inward
      exact ⟨by simp [ha, ho], by simp [hr, ho]⟩
  | pass h => exact ⟨rfl, rfl⟩

/-- Nobody but the writer takes lines, and nobody tells it to end. -/
theorem Step.undisturbed {s s' : Session σ} {o : Occurrence} (h : Step s o s') :
    o.drained = [] ∧ o ≠ .cancel := by
  cases h with
  | work h => exact (Writer.work_of_step? h).inward.2.2.2
  | _ => exact ⟨rfl, nofun⟩

theorem byEvents_of_run {s s' : Session σ} {tr : Trace} (h : Run Step s tr s') :
    tr.ByEvents := by
  induction h with
  | start => exact .nil
  | more _ step ih => exact ih.append step.byEvents

theorem undisturbed_of_run {s s' : Session σ} {tr : Trace} (h : Run Step s tr s') :
    tr.flatMap (·.drained) = [] ∧ .cancel ∉ tr := by
  induction h with
  | start => exact ⟨rfl, nofun⟩
  | more _ step ih =>
      obtain ⟨hd, hc⟩ := step.undisturbed
      exact ⟨by simp [ih.1, hd], Trace.not_mem_snoc ih.2 hc⟩

/-! ### What the writer does on a clock -/

/-- **What the writer does before a moment, with whatever sink, is a run of steps.** -/
theorem run_of_timeline (s : Session σ) (sink : Sink σ) (limit : Nat) (t : Timeline σ) :
    ∃ tr, Run Step { s with timeline := t } tr
      { s with timeline := t.run sink s.plan limit } ∧ tr.outcomes = [] := by
  obtain ⟨tr, run⟩ := Timeline.run_of_works sink s.plan limit t
  refine ⟨tr, run.map (fun t => { s with timeline := t }) fun h => ?_,
    run.outcomes_eq_nil fun h => ?_⟩
  · obtain ⟨st, hw, ho⟩ := h.exists_step?
    exact ho ▸ .work hw
  · obtain ⟨st, hw, ho⟩ := h.exists_step?
    exact ho ▸ (Writer.work_of_step? hw).inward.1

/-- A pause of the session is a run in which no event is handed in. -/
theorem run_of_sleep (s : Session σ) (sink : Sink σ) (ms : Nat) :
    ∃ tr, Run Step s tr (s.sleep sink ms) ∧ tr.outcomes = [] := by
  obtain ⟨tr, run, hn⟩ := s.run_of_timeline sink (Pause.finish s.timeline.now ms) s.timeline
  exact ⟨tr ++ [.other], .more run (.pass (t := s.timeline.sleep sink s.plan ms) rfl),
    by simp [hn, Occurrence.outcome?]⟩

/-- To stop a session is to tell the writer to end, let it work, and close it. -/
theorem run_of_stop (s : Session σ) (sink : Sink σ) :
    ∃ tr s', Run Step s.cancel tr s' ∧ tr.outcomes = [] ∧
      (s.stop sink).2.timeline.writer =
        s'.timeline.writer.close s'.timeline.writer.hasEnded := by
  obtain ⟨tr, run, hn⟩ := s.run_of_timeline sink (s.timeline.now + s.grace) s.cancel.timeline
  exact ⟨tr, _, run, hn, rfl⟩

end Session

/-! ### The counters at the end -/

/-- Every event is accounted for, once. -/
structure Spool.Accounted (tr : Trace) (s : Spool) : Prop where
  seen     : s.counters.seen = .ofNat tr.outcomes.length
  filtered : s.counters.filtered = .ofNat (tr.outcomes.count .filtered)
  queued   : s.counters.queued = .ofNat (tr.outcomes.count .queued)
  written  : s.counters.written = .ofNat (tr.flatMap (·.taken)).length
  /-- Every queued event has one line. -/
  accepted : (tr.flatMap (·.accepted)).length = tr.outcomes.count .queued
  /-- The lines that were lost are those the sink has not taken. -/
  dropped  : ∃ lost : List LogLine,
    (tr.flatMap (·.accepted)).Perm (tr.flatMap (·.taken) ++ lost) ∧
      s.counters.dropped = s.queue.refused + .ofNat lost.length
  total    : s.counters.seen = s.counters.filtered + s.counters.written + s.counters.dropped

namespace Writer

/-- Every accepted line is taken by the sink, given up or left, where nobody else takes lines. -/
theorem Balanced.accepted_perm {tr : Trace} {w : Writer} (h : Balanced tr w)
    (hd : tr.flatMap (·.drained) = []) :
    (tr.flatMap (·.accepted)).Perm
      (tr.flatMap (·.taken) ++
        (tr.flatMap (·.givenUp) ++ (w.phase.unsettled ++ w.queue.items))) := by
  have hr := Trace.removed_perm tr
  rw [hd, List.nil_append, h.hands] at hr
  rw [h.spool.items, ← List.append_assoc, ← List.append_assoc]
  exact (hr.trans ((Trace.settled_perm tr).append_right _)).append_right _

/-- **The counters of a closed writer account for every event.** -/
theorem accounted_close {tr : Trace} {w : Writer} {inTime : Bool} (hb : Balanced tr w)
    (he : tr.ByEvents) (hd : tr.flatMap (·.drained) = [])
    (hn : (inTime && w.hasFinished) = true → w.phase.unsettled ++ w.queue.items = []) :
    (w.close inTime).spool.Accounted tr := by
  have hl := hb.accepted_perm hd
  have hk := counters_close hb.inFlight hn
  have hr : (w.close inTime).queue.refused = .ofNat (tr.outcomes.count .dropped) := by
    rw [refused_close, ← he.refused]
    exact hb.spool.refused
  generalize w.close inTime = w' at hk hr ⊢
  -- what is left when the writer is closed is empty if it has finished by itself
  generalize hleft : w.phase.unsettled ++ w.queue.items = left at hl hk
  have hs : w'.spool.counters.seen = .ofNat tr.outcomes.length :=
    (congrArg Counters.seen hk).trans hb.spool.tally.seen
  have hf : w'.spool.counters.filtered = .ofNat (tr.outcomes.count .filtered) :=
    (congrArg Counters.filtered hk).trans hb.spool.tally.filtered
  have hq : w'.spool.counters.queued = .ofNat (tr.outcomes.count .queued) :=
    (congrArg Counters.queued hk).trans hb.spool.tally.queued
  have hw : w'.spool.counters.written = .ofNat (tr.flatMap (·.taken)).length :=
    (congrArg Counters.written hk).trans hb.spool.tally.written
  have hd : w'.spool.counters.dropped =
      .ofNat (tr.outcomes.count .dropped + (tr.flatMap (·.givenUp) ++ left).length) := by
    calc w'.spool.counters.dropped
        = w.spool.counters.dropped + .ofNat left.length := congrArg Counters.dropped hk
      _ = .ofNat (tr.outcomes.count .dropped + (tr.flatMap (·.givenUp)).length) +
            .ofNat left.length := by rw [hb.spool.tally.dropped]
      _ = _ := by rw [← UInt64.ofNat_add, Nat.add_assoc, ← List.length_append]
  refine ⟨hs, hf, hq, hw, he.accepted, ⟨_, hl, ?_⟩, ?_⟩
  · rw [hd, UInt64.ofNat_add, ← hr]
    rfl
  · have ho := Trace.length_outcomes tr
    have ha := hl.length_eq
    rw [he.accepted, List.length_append] at ha
    rw [hs, hf, hw, hd, ← UInt64.ofNat_add, ← UInt64.ofNat_add]
    exact congrArg UInt64.ofNat (by omega)

/-- A writer that was told to end, and to which nothing came after that, finds nothing left. -/
theorem FoundEmpty.items_eq_nil {before after : Trace} {w : Writer}
    (h : FoundEmpty (before ++ .cancel :: after) w) (hb : .cancel ∉ before)
    (ha : after.flatMap (·.accepted) = []) : w.queue.items = [] := by
  obtain ⟨b, a, he, hc, -, hq⟩ := h
  -- the empty batch was taken after the writer was told to end, or `before` would have `cancel`
  rcases List.append_eq_append_iff.mp he with ⟨m, rfl, hm⟩ | ⟨m, rfl, -⟩
  · cases m with
    | nil => cases hm
    | cons o m =>
        have hm : after = m ++ .batch [] :: a := (List.cons.inj hm).2
        simp only [hm, List.flatMap_append, List.flatMap_cons, List.append_eq_nil_iff] at ha
        exact List.suffix_nil.mp (ha.2.2 ▸ hq)
  · exact absurd (List.mem_append_left _ hc) hb

end Writer

namespace Session

variable {σ : Type}

theorem writer_of_start {settings : Config.Settings} {draws : Draws} {sink : σ}
    {hasRuntime : Bool} {fs : FileSystem} {watched? : Option String} {s : Session σ}
    (h : start settings draws sink hasRuntime fs watched? = .ok s) :
    s.timeline.writer = { spool := { queue := .new settings.pipeline.queueCapacity } } := by
  unfold start at h
  cases hk : settings.policy.kinds.noneEnabled with
  | true => simp [hk, bind, Except.bind, throw, throwThe, MonadExceptOf.throw] at h
  | false =>
      cases hasRuntime with
      | false => simp [hk, bind, Except.bind, throw, throwThe, MonadExceptOf.throw] at h
      | true =>
          cases hw : watched?.mapM fun path =>
              (Watcher.start fs path).mapError StartError.unwatchable with
          | error e => simp [hk, hw] at h
          | ok watcher? =>
              simp only [hk, hw] at h
              cases h
              rfl

/-- A session that was told to end is accounted for when its writer is closed, if no event was
handed in after that. -/
theorem accounted_of_runs {settings : Config.Settings} {draws : Draws} {sink : σ}
    {hasRuntime : Bool} {fs : FileSystem} {watched? : Option String} {s₀ s₁ s₂ : Session σ}
    {before after : Trace} (hs : start settings draws sink hasRuntime fs watched? = .ok s₀)
    (h₁ : Run Step s₀ before s₁) (h₂ : Run Step s₁.cancel after s₂) (hn : after.outcomes = [])
    (inTime : Bool) :
    (s₂.timeline.writer.close inTime).spool.Accounted (before ++ .cancel :: after) := by
  have he₂ := byEvents_of_run h₂
  have he : Trace.ByEvents (before ++ ([.cancel] ++ after)) :=
    (byEvents_of_run h₁).append (.append ⟨rfl, rfl⟩ he₂)
  obtain ⟨hd₁, hc₁⟩ := undisturbed_of_run h₁
  have hd : List.flatMap (·.drained) (before ++ ([Occurrence.cancel] ++ after)) = [] := by
    rw [List.flatMap_append, List.flatMap_append, hd₁, (undisturbed_of_run h₂).1]
    rfl
  have run : Run Writer.Lawful s₀.timeline.writer (before ++ ([.cancel] ++ after))
      s₂.timeline.writer :=
    (h₁.map (·.timeline.writer) Step.lawful).trans
      ((Run.one (.cancel _)).trans (h₂.map (·.timeline.writer) Step.lawful))
  rw [writer_of_start hs] at run
  have hb := Writer.balanced_of_run run
  refine Writer.accounted_close hb he hd fun hf => ?_
  obtain ⟨hu, hf⟩ := hb.of_hasFinished (Bool.and_eq_true_iff.mp hf).2
  rw [hu, hf.items_eq_nil hc₁ (he₂.accepted_eq_nil hn), List.append_nil]

/-- **Every event is accounted for once a session has stopped**, however the writer comes to its
end; in particular on a clock, with any sink. -/
theorem events_accounted {settings : Config.Settings} {draws : Draws} {sink : σ}
    {hasRuntime : Bool} {fs : FileSystem} {watched? : Option String} {s₀ s₁ : Session σ}
    {before : Trace} (hs : start settings draws sink hasRuntime fs watched? = .ok s₀)
    (h : Run Step s₀ before s₁) :
    (∀ (after : Trace) (s₂ : Session σ), Run Step s₁.cancel after s₂ → after.outcomes = [] →
      ∀ inTime : Bool,
        (s₂.timeline.writer.close inTime).spool.Accounted (before ++ .cancel :: after)) ∧
    ∀ behaviour : Sink σ, ∃ (after : Trace) (s₂ : Session σ),
      Run Step s₁.cancel after s₂ ∧ after.outcomes = [] ∧
        (s₁.stop behaviour).2.timeline.writer =
          s₂.timeline.writer.close s₂.timeline.writer.hasEnded ∧
        (s₁.stop behaviour).1 = (s₁.stop behaviour).2.spool.counters ∧
        (s₁.stop behaviour).2.spool.Accounted (before ++ .cancel :: after) := by
  refine ⟨fun after s₂ h₂ hn inTime => accounted_of_runs hs h h₂ hn inTime, fun behaviour => ?_⟩
  obtain ⟨after, s₂, h₂, hn, hc⟩ := s₁.run_of_stop behaviour
  refine ⟨after, s₂, h₂, hn, hc, rfl, ?_⟩
  rw [spool, hc]
  exact accounted_of_runs hs h h₂ hn _

/-- A packet of a kind, about which no more is known. -/
def packet (code : UInt8) : Event := { code, direction := .inbound, time := ⟨0, 0⟩ }

/-- Settings under which pings are filtered, and each line is a batch of its own, tried once. -/
def pingless : Config.Settings where
  policy   := { kinds := (KindFlags.uniform true).set .ping .inbound false }
  pipeline := { batchSize := 1, maxAttempts := 1 }

/-- A session with these settings that has just been started. -/
def fresh : Session Unit where
  store    := .new pingless.policy
  timeline := {
    writer := { spool := { queue := .new pingless.pipeline.queueCapacity } }
    sink   := () }
  plan     := .ofSettings (fun _ _ => 0) pingless.pipeline
  grace    := pingless.pipeline.grace
  watcher? := none

/-- Of three events one is filtered and two are queued.  One of these is written, and the other is
in hand when the session is stopped: at once, or by a shutdown with whatever sink. -/
theorem events_accounted_once :
    start pingless (fun _ _ => 0) () true {} none = .ok fresh ∧
    ∃ (s₁ : Session Unit) (before : Trace), Run Step fresh before s₁ ∧
        (let c := (s₁.cancel.timeline.writer.close false).spool.counters
         c.seen = 3 ∧ c.filtered = 1 ∧ c.written = 1 ∧ c.dropped = 1 ∧
           c.seen = c.filtered + c.written + c.dropped) ∧
        ∀ behaviour : Sink Unit,
          let c := (s₁.stop behaviour).1
          c.seen = 3 ∧ c.filtered = 1 ∧ c.seen = c.filtered + c.written + c.dropped := by
  have works {s : Session Unit} (st : Stimulus) {w : Writer}
      (h : s.timeline.writer.step? s.plan st = some w) :
      Step s (s.timeline.writer.shows s.plan st)
        { s with timeline := { s.timeline with writer := w } } := .work h
  have run : Run Step fresh _ _ :=
    ((((((((Run.one (.event (packet 12))).more (.event (packet 1))).more (.event (packet 14))).more
      (works .nothing rfl)).more (works .nothing rfl)).more (works (.reply .ok) rfl)).more
      (works (.reply .ok) rfl)).more (works .nothing rfl))
  have hs : start pingless (fun _ _ => 0) () true {} none = .ok fresh := rfl
  refine ⟨hs, _, _, run, ?_, fun behaviour => ?_⟩
  · have ha := (events_accounted hs run).1 [] _ .start rfl false
    refine ⟨?_, ?_, ?_, ?_, ha.total⟩ <;> decide +kernel
  · obtain ⟨after, -, -, hn, -, he, ha⟩ := (events_accounted hs run).2 behaviour
    rw [he]
    refine ⟨ha.seen.trans ?_, ha.filtered.trans ?_, ha.total⟩
    · rw [Trace.outcomes_append, Trace.outcomes_cons, hn]
      decide +kernel
    · rw [Trace.outcomes_append, Trace.outcomes_cons, hn]
      decide +kernel

end Session

end PacketLog
