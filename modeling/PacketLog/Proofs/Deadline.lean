import PacketLog.Proofs.Batch

/-!
# Proofs — Deadline

A writer that is shut down, on its clock.

While nobody meddles with the clock (`Timeline.Tick`), nothing the writer waits for is in the past,
and the calls of the sink are those it has heard the answer of and the one it waits for, if it does
(`Timeline.InTime`).

* `Timeline.InTime.work`, `Timeline.InTime.tick`: no step changes that, and none goes back in time.
* `Timeline.inTime_of_run`: so it is after every run.
* `Timeline.ticks_of_run`, `Timeline.ticks_of_sleep`: what the writer does before a moment is such a
  run.
* `Timeline.shutdown_bounded`: a shutdown takes no longer than it may, counts the writes that have
  been answered, and no call follows it.
-/

namespace PacketLog

/-- What the writer has asked of the sink: to write a line, or else to flush. -/
def Phase.request : Phase → Option (Option LogLine)
  | .writing line _ _ => some (some line)
  | .flushing         => some none
  | _                 => none

/-- When the call is answered, if ever. -/
def Call.finish? (c : Call) : Option Nat := (c.outcome.answer? c.time).map (·.1)

theorem Call.le_of_finish? {c : Call} {time : Nat} (h : time ∈ c.finish?) : c.time ≤ time := by
  obtain ⟨⟨_, r⟩, ha, rfl⟩ := Option.map_eq_some_iff.mp h
  exact Outcome.le_of_answer? ha

namespace Writer

variable {plan : Plan} {w w' : Writer} {st : Stimulus} {o : Occurrence}

/-- A writer does not stop itself before its end. -/
theorem Work.ne_aborted (h : Work plan w st o w') (lines : List LogLine) :
    w'.phase ≠ .ended .aborted lines := by
  intro hp
  cases h with
  | write => simpa [settle] using hasEnded_of_phase hp
  | _ => cases hp

theorem exists_phase_of_hasEnded (h : w.hasEnded = true) :
    ∃ how lines, w.phase = .ended how lines := by
  unfold hasEnded at h
  split at h
  · next how lines hp => exact ⟨how, lines, hp⟩
  · cases h

/-- A writer that has ended is closed as one that has ended so. -/
theorem phase_close {how : Ending} {lines : List LogLine} (hp : w.phase = .ended how lines) :
    ∃ lines', (w.close true).phase = .ended how lines' := by
  cases how with
  | finished => exact ⟨lines, by rw [close_eq_self (by rw [hasFinished, hp]; rfl), hp]⟩
  | brokeDown => exact ⟨[], by simp only [close, hp]; rfl⟩
  | aborted => exact ⟨[], by simp only [close, hp]; rfl⟩

/-- A writer one has done with has ended, and to close it is not to write a line. -/
theorem hasEnded_close (w : Writer) (inTime : Bool) :
    (w.close inTime).hasEnded = true ∧
      (w.close inTime).spool.counters.written = w.spool.counters.written := by
  cases h : inTime && w.hasFinished with
  | true =>
      obtain ⟨lines, hp⟩ := exists_phase_of_hasFinished (Bool.and_eq_true_iff.mp h).2
      rw [close_eq_self h]
      exact ⟨hasEnded_of_phase hp, rfl⟩
  | false =>
      obtain ⟨how, hc⟩ := exists_close_eq_discard h
      rw [hc]
      exact ⟨rfl, rfl⟩

/-- A writer that has asked something of the sink goes on with any answer. -/
theorem exists_step?_reply {line? : Option LogLine} (hp : w.phase.request = some line?)
    (r : Reply) : ∃ w', w.step? plan (.reply r) = some w' := by
  cases hq : w.phase with
  | writing | flushing => exact ⟨_, by rw [step?, hq]⟩
  | _ =>
      rw [hq] at hp
      cases hp

end Writer

namespace Timeline

variable {σ : Type} {s : Sink σ} {plan : Plan} {limit time : Nat} {t t' : Timeline σ}
  {st : Stimulus} {o : Occurrence} {tr tr' : Trace} {answered pending : List Call}

/-! ### Steps on a clock -/

/-- A step of the writer or of those around it.  Time only passes forwards, and never beyond what
the writer does next; and nobody stops the writer. -/
inductive Tick (s : Sink σ) (plan : Plan) (t : Timeline σ) : Occurrence → Timeline σ → Prop where
  | work {limit : Nat} {t' : Timeline σ} (h : t.step? s plan limit = some t') :
      Tick s plan t (t.shows plan) t'
  | aside {o : Occurrence} {w : Writer} (h : t.writer.Aside o w) :
      Tick s plan t o { t with writer := w }
  | pass {now : Nat} (hn : t.now ≤ now) (hs : t.step? s plan now = none) :
      Tick s plan t .other { t with now }

theorem Tick.step (h : Tick s plan t o t') : Step s plan t o t' := by
  cases h with
  | work h => exact .work h
  | aside h => exact .aside h
  | pass hn hs => exact .pass _

theorem ticks_of_run (s : Sink σ) (plan : Plan) (limit : Nat) (t : Timeline σ) :
    ∃ tr, Run (Tick s plan) t tr (t.run s plan limit) := by
  obtain ⟨tr, run⟩ := run_of_works s plan limit t
  refine ⟨tr, run.map id fun h => ?_⟩
  exact h.shows ▸ .work h.step

/-- When a writer has done what it does before a moment there is no more to do. -/
theorem step?_run (s : Sink σ) (plan : Plan) (limit : Nat) (t : Timeline σ) :
    (t.run s plan limit).step? s plan limit = none := by
  fun_induction run s plan limit t with
  | case1 t h => exact h
  | case2 t t' h ih => exact ih

@[simp] theorem now_follow (s : Sink σ) (t : Timeline σ) (w : Writer) :
    (t.follow s w).now = t.now := by
  unfold follow
  split <;> rfl

theorem now_lt_of_step? (h : t.step? s plan limit = some t') : t'.now < limit := by
  obtain ⟨time, st, w, -, hl, -, rfl⟩ := step?_eq_some_iff.mp h
  rwa [now_follow]

/-- Either nothing was to do, or it was done before the moment. -/
theorem now_run (s : Sink σ) (plan : Plan) (limit : Nat) (t : Timeline σ) :
    (t.run s plan limit).now ≤ t.now ∨ (t.run s plan limit).now < limit := by
  fun_induction run s plan limit t with
  | case1 t h => exact .inl (Nat.le_refl _)
  | case2 t t' h ih =>
      refine .inr ?_
      rcases ih with ih | ih
      · exact Nat.lt_of_le_of_lt ih (now_lt_of_step? h)
      · exact ih

theorem now_run_le (s : Sink σ) (plan : Plan) (h : t.now ≤ limit) :
    (t.run s plan limit).now ≤ limit := by
  rcases now_run s plan limit t with hle | hlt
  · exact Nat.le_trans hle h
  · exact Nat.le_of_lt hlt

/-- A writer that has ended calls the sink no more. -/
theorem calls_of_run (h : Run (Step s plan) t tr t') (he : t.writer.hasEnded = true) :
    t'.calls = t.calls ∧ t'.writer.hasEnded = true := by
  induction h with
  | start => exact ⟨rfl, he⟩
  | more _ step ih =>
      obtain ⟨hc, he'⟩ := ih
      refine ⟨?_, hasEnded_of_step step he'⟩
      cases step with
      | work h =>
          obtain ⟨_, _, w, -, -, hw, -⟩ := step?_eq_some_iff.mp h
          rw [Writer.step?_of_hasEnded he'] at hw
          cases hw
      | _ => exact hc

/-! ### What the writer waits for -/

theorem next?_of_request {line? : Option LogLine} (hp : t.writer.phase.request = some line?) :
    t.next? = t.due := by
  cases hq : t.writer.phase with
  | writing | flushing => rw [next?, hq]
  | _ =>
      rw [hq] at hp
      cases hp

/-- What the writer waits for: the answer to the call it has made, or the end of a pause. -/
inductive Awaits (t : Timeline σ) : List Call → Prop where
  | answer {c : Call} (hp : t.writer.phase.request = some c.line?) (hb : c.time ≤ t.now)
      (hd : t.due = (c.outcome.answer? c.time).map fun (time, r) => (time, .reply r)) :
      Awaits t [c]
  | timer {line : LogLine} {rest : List LogLine} {failed nanos time : Nat}
      (hp : t.writer.phase = .waiting line rest failed nanos) (hd : t.due = some (time, .timer)) :
      Awaits t []
  | nothing (hp : t.writer.phase.request = none) (hd : t.due = none) : Awaits t []

namespace Awaits

theorem congr (h : t.Awaits pending) (hp : t'.writer.phase = t.writer.phase)
    (hd : t'.due = t.due) (hn : t.now ≤ t'.now) : t'.Awaits pending := by
  cases h with
  | answer hp' hb hd' => exact .answer (hp ▸ hp') (Nat.le_trans hb hn) (hd.trans hd')
  | timer hp' hd' => exact .timer (hp.trans hp') (hd.trans hd')
  | nothing hp' hd' => exact .nothing (hp ▸ hp') (hd.trans hd')

theorem length_le (h : t.Awaits pending) : pending.length ≤ 1 := by
  cases h with
  | answer => exact Nat.le_refl 1
  | _ => exact Nat.zero_le 1

theorem time_le (h : t.Awaits pending) : ∀ c ∈ pending, c.time ≤ t.now := by
  cases h with
  | answer hp hb hd =>
      intro c hc
      rwa [List.mem_singleton.mp hc]
  | _ => exact List.forall_mem_nil _

/-- Of a writer that has ended nothing is asked. -/
theorem eq_nil (h : t.Awaits pending) (he : t.writer.hasEnded = true) : pending = [] := by
  cases h with
  | answer hp hb hd =>
      obtain ⟨how, lines, hq⟩ := Writer.exists_phase_of_hasEnded he
      rw [hq] at hp
      cases hp
  | _ => rfl

/-- What is due is what the writer does next, and it can. -/
theorem next_of_due (h : t.Awaits pending) (plan : Plan) (hd : t.due = some (time, st)) :
    t.next? = some (time, st) ∧ ∃ w, t.writer.step? plan st = some w := by
  cases h with
  | answer hp hb hd' =>
      obtain ⟨⟨time, r⟩, -, he⟩ := Option.map_eq_some_iff.mp (hd'.symm.trans hd)
      cases he
      exact ⟨(next?_of_request hp).trans hd, Writer.exists_step?_reply hp r⟩
  | timer hp hd' =>
      cases hd'.symm.trans hd
      exact ⟨by rw [next?, hp, hd], _, by rw [Writer.step?, hp]⟩
  | nothing hp hd' => cases hd'.symm.trans hd

/-- A writer that does nothing before a moment waits for nothing that falls before it. -/
theorem le_of_step?_eq_none (h : t.Awaits pending) (hs : t.step? s plan limit = none)
    (hd : t.due = some (time, st)) : limit ≤ time := by
  obtain ⟨hn, w, hw⟩ := h.next_of_due plan hd
  by_contra hl
  have hstep : t.step? s plan limit = some _ :=
    step?_eq_some_iff.mpr ⟨time, st, w, hn, Nat.lt_of_not_le hl, hw, rfl⟩
  cases hs.symm.trans hstep

/-- Nor does it wait for an answer that does. -/
theorem le_of_finish? (h : t.Awaits pending) (hs : t.step? s plan limit = none) :
    ∀ c ∈ pending, ∀ time ∈ c.finish?, limit ≤ time := by
  intro c hc time ht
  obtain ⟨⟨time, r⟩, ha, rfl⟩ := Option.map_eq_some_iff.mp ht
  have hdue : t.due = some (time, .reply r) := by
    cases h with
    | answer hp hb hd =>
        obtain rfl := List.mem_singleton.mp hc
        rw [hd, ha, Option.map_some]
    | _ => cases hc
  exact h.le_of_step?_eq_none hs hdue

/-- When the writer goes on, the call it waits for is answered. -/
theorem finish?_of_next? (h : t.Awaits pending) (hn : t.next? = some (time, st)) :
    ∀ c ∈ pending, time ∈ c.finish? := by
  cases h with
  | answer hp hb hd =>
      intro c hc
      obtain rfl := List.mem_singleton.mp hc
      rw [next?_of_request hp, hd] at hn
      obtain ⟨⟨time, r⟩, ha, he⟩ := Option.map_eq_some_iff.mp hn
      cases he
      exact Option.map_eq_some_iff.mpr ⟨_, ha, rfl⟩
  | _ => exact List.forall_mem_nil _

/-- The sink has taken what it takes in the call the writer waits for. -/
theorem unheard (h : t.Awaits pending) : t.Unheard (Call.taken pending) := by
  have hn (hp : ∀ line rest failed, t.writer.phase ≠ .writing line rest failed) :
      t.Unheard [] := .nothing hp
  cases h with
  | @answer c hp hb hd =>
      rw [Call.taken_cons, Call.taken_nil, List.append_nil]
      cases hq : t.writer.phase with
      | writing line rest failed =>
          rw [hq] at hp
          rw [← Option.some.inj hp]
          exact .writing hq hd
      | flushing =>
          rw [hq] at hp
          rw [← Option.some.inj hp, Option.toList_none, ite_self]
          exact hn (by simp [hq])
      | _ => simp [hq, Phase.request] at hp
  | timer hp hd => exact hn (by simp [hp])
  | nothing hp hd =>
      refine hn fun line rest failed hq => ?_
      rw [hq] at hp
      cases hp

end Awaits

/-- A call is answered when it is made, or later. -/
theorem exists_awaits_call {line? : Option LogLine} (hp : t.writer.phase.request = some line?)
    (made : Outcome × σ) :
    ∃ cs, (t.call line? made).calls = t.calls ++ cs ∧ (t.call line? made).Awaits cs ∧
      ∀ time st, (t.call line? made).due = some (time, st) → t.now ≤ time := by
  refine ⟨_, rfl, .answer hp (Nat.le_refl _) rfl, fun time st hd => ?_⟩
  obtain ⟨⟨time, r⟩, ha, he⟩ := Option.map_eq_some_iff.mp hd
  cases he
  exact Outcome.le_of_answer? ha

/-- When the writer changes it makes one call at most, and what it waits for then is not in the
past. -/
theorem exists_awaits_follow (s : Sink σ) (t : Timeline σ) (w : Writer) :
    ∃ cs, (t.follow s w).calls = t.calls ++ cs ∧ (t.follow s w).Awaits cs ∧
      ∀ time st, (t.follow s w).due = some (time, st) → t.now ≤ time := by
  cases hp : w.phase with
  | writing line rest failed =>
      rw [follow_writing hp]
      exact exists_awaits_call (congrArg Phase.request hp) _
  | flushing =>
      rw [follow_flushing hp]
      exact exists_awaits_call (congrArg Phase.request hp) _
  | waiting line rest failed nanos =>
      rw [follow_waiting hp]
      refine ⟨[], (List.append_nil _).symm, .timer hp rfl, fun time st h => ?_⟩
      cases h
      exact Nat.le_add_right _ _
  | idle | taking | ended =>
      simp only [follow, hp]
      refine ⟨[], (List.append_nil _).symm, .nothing (congrArg Phase.request hp) rfl, ?_⟩
      intro time st h
      cases h

/-! ### Answers -/

/-- The writer has heard the answers to the calls `answered`, none of which is still to come, and
waits for that to the one `pending`, if any.  Nothing it waits for is in the past. -/
structure InTime (tr : Trace) (t : Timeline σ) (answered pending : List Call) : Prop where
  calls  : t.calls = answered ++ pending
  awaits : t.Awaits pending
  due    : ∀ time st, t.due = some (time, st) → t.now ≤ time
  past   : ∀ c ∈ answered, ∃ time ∈ c.finish?, time ≤ t.now
  /-- What the sink has taken in those calls has been seen. -/
  heard  : Call.taken answered = tr.flatMap (·.taken)
  /-- The writer has not been stopped. -/
  free   : ∀ lines, t.writer.phase ≠ .ended .aborted lines

namespace InTime

theorem begun (h : InTime tr t answered pending) : ∀ c ∈ t.calls, c.time ≤ t.now := by
  intro c hc
  rw [h.calls] at hc
  rcases List.mem_append.mp hc with hc | hc
  · obtain ⟨time, ht, hn⟩ := h.past c hc
    exact Nat.le_trans (Call.le_of_finish? ht) hn
  · exact h.awaits.time_le c hc

theorem le_of_next? (h : InTime tr t answered pending) (hn : t.next? = some (time, st)) :
    t.now ≤ time := by
  unfold next? at hn
  split at hn
  · cases hn
    exact Nat.le_refl _
  · cases hn
    exact Nat.le_refl _
  · exact h.due time st hn

/-- When the writer goes on it hears the answer it has waited for. -/
theorem work (h : InTime tr t answered pending) (hs : t.step? s plan limit = some t') :
    t.now ≤ t'.now ∧
      ∃ pending', InTime (tr ++ [t.shows plan]) t' (answered ++ pending) pending' := by
  obtain ⟨time, st, w, hn, -, hw, rfl⟩ := step?_eq_some_iff.mp hs
  have hle : t.now ≤ time := h.le_of_next? hn
  have hwork := Writer.work_of_step? hw
  obtain ⟨cs, hc, ha, hd⟩ := exists_awaits_follow s { t with now := time } w
  rw [now_follow]
  refine ⟨hle, cs, ?_⟩
  exact {
    calls  := by rw [hc, ← h.calls]
    awaits := ha
    due    := by rwa [now_follow]
    past   := by
      intro c hc
      rw [now_follow]
      rcases List.mem_append.mp hc with hc | hc
      · obtain ⟨e, he, hen⟩ := h.past c hc
        exact ⟨e, he, Nat.le_trans hen hle⟩
      · exact ⟨time, h.awaits.finish?_of_next? hn c hc, Nat.le_refl _⟩
    heard  := by
      rw [Call.taken_append, h.heard, ← h.awaits.unheard.eq_taken hn hwork, shows_of_next? hn]
      simp
    free   := by
      rw [writer_follow]
      exact hwork.ne_aborted }

/-- **No step goes back in time**, and after each one the writer waits for what is to come. -/
theorem tick (h : InTime tr t answered pending) (step : Tick s plan t o t') :
    t.now ≤ t'.now ∧ ∃ answered' pending', InTime (tr ++ [o]) t' answered' pending' := by
  cases step with
  | work hs =>
      obtain ⟨hle, pending', h'⟩ := h.work hs
      exact ⟨hle, _, pending', h'⟩
  | aside hw =>
      refine ⟨Nat.le_refl _, answered, pending, ?_⟩
      exact {
        calls  := h.calls
        awaits := h.awaits.congr hw.phase rfl (Nat.le_refl _)
        due    := h.due
        past   := h.past
        heard  := by simp [h.heard, hw.taken_batched.1]
        free   := fun lines hp => h.free lines (hw.phase.symm.trans hp) }
  | pass hn hs =>
      refine ⟨hn, answered, pending, ?_⟩
      exact {
        calls  := h.calls
        awaits := h.awaits.congr rfl rfl hn
        due    := fun time st hd => h.awaits.le_of_step?_eq_none hs hd
        past   := by
          intro c hc
          obtain ⟨e, he, hen⟩ := h.past c hc
          exact ⟨e, he, Nat.le_trans hen hn⟩
        heard  := by simp [h.heard, Occurrence.taken]
        free   := h.free }

theorem ticks (h : InTime tr t answered pending) (run : Run (Tick s plan) t tr' t') :
    t.now ≤ t'.now ∧ ∃ answered' pending', InTime (tr ++ tr') t' answered' pending' := by
  induction run with
  | start => exact ⟨Nat.le_refl _, answered, pending, (List.append_nil tr).symm ▸ h⟩
  | more _ step ih =>
      obtain ⟨hle, _, _, h'⟩ := ih
      obtain ⟨hle', h'⟩ := h'.tick step
      exact ⟨Nat.le_trans hle hle', by rwa [List.append_assoc] at h'⟩

end InTime

theorem inTime_of_run {capacity : Nat} {sink : σ}
    (h : Run (Tick s plan) { writer := { spool := { queue := .new capacity } }, sink } tr t) :
    ∃ answered pending, InTime tr t answered pending := by
  have start : InTime [] { writer := { spool := { queue := .new capacity } }, sink : Timeline σ }
      [] [] :=
    ⟨rfl, .nothing rfl rfl, nofun, List.forall_mem_nil _, rfl, nofun⟩
  exact (start.ticks h).2

/-- A pause is a run of steps on the clock, too. -/
theorem ticks_of_sleep (s : Sink σ) (plan : Plan) (ms : Nat) (t : Timeline σ) :
    ∃ tr, Run (Tick s plan) t tr (t.sleep s plan ms) := by
  obtain ⟨tr, run⟩ := ticks_of_run s plan (Pause.finish t.now ms) t
  have hle : t.now ≤ Pause.finish t.now ms := Nat.le_add_right _ _
  exact ⟨_, run.more (.pass (now_run_le s plan hle) (step?_run s plan _ t))⟩

/-! ### The end -/

/-- How a shutdown goes that begins at `t`, may take `grace` milliseconds, and is over at `t'`.  The
calls that have been made by then are those that have been `answered`, and one that is `cut` off at
most. -/
structure Shut (s : Sink σ) (plan : Plan) (grace : Nat) (t t' : Timeline σ)
    (answered cut : List Call) : Prop where
  forwards : t.now ≤ t'.now
  bounded  : t'.now ≤ t.now + grace
  /-- If it takes less time than it may, the writer has finished or has broken down. -/
  early    : t'.now < t.now + grace →
    ∃ how lines, t'.writer.phase = .ended how lines ∧ how ≠ .aborted
  calls    : t'.calls = answered ++ cut
  begun    : ∀ c ∈ t'.calls, c.time ≤ t'.now
  /-- An answer that comes just when the time is over comes too late. -/
  heard    : ∀ c ∈ answered, ∃ time ∈ c.finish?, time ≤ t'.now ∧
    (0 < grace → time < t.now + grace)
  unheard  : ∀ c ∈ cut, t'.now = t.now + grace ∧ ∀ time ∈ c.finish?, t'.now ≤ time
  once     : cut.length ≤ 1
  /-- Counted as written are the lines the sink has taken in the calls that have been answered. -/
  written  : t'.writer.spool.counters.written = .ofNat (Call.taken answered).length
  /-- Whatever comes after that, no call does. -/
  silent   : ∀ tr u, Run (Tick s plan) t' tr u → u.calls = t'.calls

/-- Where the writer is when it has worked for as long as it may tells how the shutdown goes. -/
theorem InTime.shut {u : Timeline σ} {grace : Nat}
    (hu : run s plan (t.now + grace) { t with writer := t.writer.cancel } = u)
    (h : InTime tr u answered pending) (hb : Writer.Balanced tr u.writer) (hn : t.now ≤ u.now) :
    Shut s plan grace t (t.shutdown s plan grace) answered pending := by
  have hnone : u.step? s plan (t.now + grace) = none := hu ▸ step?_run s plan _ _
  have hlt : u.now ≤ t.now ∨ u.now < t.now + grace := hu ▸ now_run s plan _ _
  obtain ⟨hended, hwritten⟩ := u.writer.hasEnded_close u.writer.hasEnded
  -- it is over when the writer has ended, or else when the time is over
  obtain ⟨now, hnow⟩ : ∃ now, now = if u.writer.hasEnded then u.now else t.now + grace := ⟨_, rfl⟩
  have ht : t.shutdown s plan grace =
      { u with writer := u.writer.close u.writer.hasEnded, now } := by
    rw [shutdown, hu, hnow]
  have hle : u.now ≤ now ∧ now ≤ t.now + grace := by
    rw [hnow]
    split <;> omega
  rw [ht]
  exact {
    forwards := Nat.le_trans hn hle.1
    bounded  := hle.2
    early    := by
      intro hearly
      have he : u.writer.hasEnded = true := by
        by_contra he
        rw [hnow, if_neg he] at hearly
        exact Nat.lt_irrefl _ hearly
      obtain ⟨how, lines, hp⟩ := Writer.exists_phase_of_hasEnded he
      obtain ⟨lines', hp'⟩ := Writer.phase_close hp
      rw [he]
      exact ⟨how, lines', hp', fun hw => h.free lines (hw ▸ hp)⟩
    calls    := h.calls
    begun    := fun c hc => Nat.le_trans (h.begun c hc) hle.1
    heard    := by
      intro c hc
      obtain ⟨time, htime, hpast⟩ := h.past c hc
      exact ⟨time, htime, Nat.le_trans hpast hle.1, fun hg => by omega⟩
    unheard  := by
      intro c hc
      have he : ¬u.writer.hasEnded = true := fun he => by
        rw [h.awaits.eq_nil he] at hc
        cases hc
      have heq : now = t.now + grace := by rw [hnow, if_neg he]
      exact ⟨heq, heq ▸ h.awaits.le_of_finish? hnone c hc⟩
    once     := h.awaits.length_le
    written  := by rw [hwritten, hb.spool.tally.written, h.heard]
    silent   := fun tr u' run => (calls_of_run (run.map id Tick.step) hended).1 }

/-- **A shutdown takes no longer than it may**, whatever the sink does, wherever the writer is, and
however long it waits between attempts. -/
theorem shutdown_bounded {capacity : Nat} {sink : σ}
    (h : Run (Tick s plan) { writer := { spool := { queue := .new capacity } }, sink } tr t)
    (grace : Nat) :
    ∃ answered cut, Shut s plan grace t (t.shutdown s plan grace) answered cut := by
  obtain ⟨tr', run⟩ := ticks_of_run s plan (t.now + grace) { t with writer := t.writer.cancel }
  have cancelled := h.more (.aside .cancel)
  have whole := cancelled.trans run
  obtain ⟨_, _, before⟩ := inTime_of_run cancelled
  obtain ⟨answered, cut, after⟩ := inTime_of_run whole
  exact ⟨answered, cut, after.shut rfl (balanced_of_run (whole.map id Tick.step))
    (before.ticks run).1⟩

/-- The first of two lines is written after two milliseconds.  The second is refused a millisecond
later, and given to the sink again after two; this write is cut off at the end of ten. -/
theorem shutdown_bounded_tie :
    ∃ (plan : Plan) (tr : Trace) (t : Timeline Script) (answered cut : List Call),
      Run (Tick .scripted plan)
          { writer := { spool := { queue := .new 2 } },
            sink := { writes :=
              [.replies .ok 2, .replies (.failed (.transient "busy")) 1, .replies .ok 5] } } tr t ∧
        Shut .scripted plan 10 t (t.shutdown .scripted plan 10) answered cut ∧
        (t.shutdown .scripted plan 10).now = 10 ∧
        (t.shutdown .scripted plan 10).calls.map (·.time) = [0, 2, 5] ∧
        (t.shutdown .scripted plan 10).writer.spool.counters.written = 1 := by
  let line (text : String) : LogLine := { kind := .ping, client := "c1", time := ⟨0, 0⟩, text }
  let plan : Plan :=
    { batchSize := 2, retry := fun _ => { maxAttempts := 2, delay? := fun _ => some 2000000 } }
  let script : Script := { writes :=
    [.replies .ok 2, .replies (.failed (.transient "busy")) 1, .replies .ok 5] }
  let t : Timeline Script :=
    { writer := { spool := { queue :=
        { capacity := 2, items := [line "1", line "2"], permit := true } } }, sink := script }
  have run : Run (Tick .scripted plan)
      { writer := { spool := { queue := .new 2 } }, sink := script } _ t :=
    (Run.one (.aside (.offer (line "1")))).more (.aside (.offer (line "2")))
  obtain ⟨answered, cut, hs⟩ := shutdown_bounded run 10
  -- the writer notices, takes the two lines, hears of the one, then of the other, and waits
  have hu : Timeline.run .scripted plan 10 { t with writer := t.writer.cancel } = _ :=
    (run_of_step? rfl).trans <| (run_of_step? rfl).trans <| (run_of_step? rfl).trans <|
      (run_of_step? rfl).trans <| (run_of_step? rfl).trans (run_of_step?_eq_none rfl)
  have hd : t.shutdown .scripted plan 10 = _ := congrArg
    (fun u : Timeline Script =>
      { u with
        writer := u.writer.close u.writer.hasEnded
        now    := if u.writer.hasEnded then u.now else 10 }) hu
  exact ⟨plan, _, t, answered, cut, run, hs, by rw [hd]; rfl, by rw [hd]; rfl, by rw [hd]; rfl⟩

end Timeline

end PacketLog
