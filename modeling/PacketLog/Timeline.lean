import PacketLog.Writer

/-!
# Timeline

A writer at work: the writer, its sink, and a clock that counts milliseconds.

Work takes no time.  The clock moves on only when the writer waits, for the answer of the sink or
for the end of a pause between two attempts, and then it moves straight to the end of the wait.
`Timeline.run` lets the writer work up to a moment, which itself does not belong to the span: what
falls due then, comes after.
-/

namespace PacketLog

/-- A call of the sink. -/
structure Call where
  time    : Nat
  /-- The line to be written.  Without one the sink is flushed. -/
  line?   : Option LogLine
  outcome : Outcome

/-- A writer, its sink and a clock. -/
structure Timeline (σ : Type) where
  writer : Writer
  sink   : σ
  now    : Nat := 0
  /-- What ends the wait the writer is in, and when, if anything does. -/
  due    : Option (Nat × Stimulus) := none
  /-- The calls of the sink so far. -/
  calls  : List Call := []

namespace Timeline

variable {σ : Type}

/-- Note a call that is made now, and what comes of it. -/
def call (t : Timeline σ) (line? : Option LogLine) (made : Outcome × σ) : Timeline σ :=
  { t with
    sink  := made.2
    due   := (made.1.answer? t.now).map fun (time, r) => (time, .reply r)
    calls := t.calls ++ [⟨t.now, line?, made.1⟩] }

/-- The writer has changed.  If it turns to the sink, the sink is called; if it pauses, the end of
the pause is set. -/
def follow (s : Sink σ) (t : Timeline σ) (w : Writer) : Timeline σ :=
  let t := { t with writer := w, due := none }
  match w.phase with
  | .writing line _ _    => t.call (some line) (s.write t.sink line)
  | .flushing            => t.call none (s.flush t.sink)
  | .waiting _ _ _ nanos => { t with due := some (Retry.wake t.now nanos, .timer) }
  | _                    => t

/-- What makes the writer go on, and when. -/
def next? (t : Timeline σ) : Option (Nat × Stimulus) :=
  match t.writer.phase with
  | .idle   => some (t.now, .nothing)
  | .taking => some (t.now, .nothing)
  | _       => t.due

/-- The next step of the writer, if it falls before `limit`. -/
def step? (s : Sink σ) (plan : Plan) (limit : Nat) (t : Timeline σ) : Option (Timeline σ) :=
  match t.next? with
  | none            => none
  | some (time, st) =>
    if time < limit then (t.writer.step? plan st).map ({ t with now := time }.follow s ·) else none

@[simp] theorem writer_follow (s : Sink σ) (t : Timeline σ) (w : Writer) :
    (t.follow s w).writer = w := by
  unfold follow
  split <;> rfl

/-- What the writer does next falls before the limit, and is followed by the sink or the clock. -/
theorem step?_eq_some_iff {s : Sink σ} {plan : Plan} {limit : Nat} {t t' : Timeline σ} :
    t.step? s plan limit = some t' ↔
      ∃ time st w, t.next? = some (time, st) ∧ time < limit ∧ t.writer.step? plan st = some w ∧
        { t with now := time }.follow s w = t' := by
  unfold step?
  cases hn : t.next? with
  | none => simp
  | some next =>
      obtain ⟨time, st⟩ := next
      by_cases hl : time < limit
      · simp only [if_pos hl, Option.map_eq_some_iff, Option.some.injEq, Prod.mk.injEq]
        constructor
        · rintro ⟨w, hw, rfl⟩
          exact ⟨time, st, w, ⟨rfl, rfl⟩, hl, hw, rfl⟩
        · rintro ⟨_, _, w, ⟨rfl, rfl⟩, -, hw, rfl⟩
          exact ⟨w, hw, rfl⟩
      · simp only [if_neg hl, reduceCtorEq, false_iff]
        rintro ⟨_, _, _, hn', hl', -⟩
        cases hn'
        exact hl hl'

theorem closer_of_step? {s : Sink σ} {plan : Plan} {limit : Nat} {t t' : Timeline σ}
    (h : t.step? s plan limit = some t') : Writer.Closer plan t'.writer t.writer := by
  obtain ⟨time, st, w, -, -, hw, rfl⟩ := step?_eq_some_iff.mp h
  rw [writer_follow]
  exact Writer.step?_closer hw

/-- Let the writer do all it does before `limit`. -/
def run (s : Sink σ) (plan : Plan) (limit : Nat) (t : Timeline σ) : Timeline σ :=
  match _h : t.step? s plan limit with
  | none    => t
  | some t' => run s plan limit t'
termination_by
  (t.writer.load, t.writer.permits, t.writer.attempts plan, t.writer.distance)
decreasing_by exact closer_of_step? _h

/-- Let the writer work during a pause of `ms` milliseconds. -/
def sleep (s : Sink σ) (plan : Plan) (ms : Nat) (t : Timeline σ) : Timeline σ :=
  let finish := Pause.finish t.now ms
  { t.run s plan finish with now := finish }

/-- Cancel the writer, give it `grace` milliseconds to come to its end, and have done with it. -/
def shutdown (s : Sink σ) (plan : Plan) (grace : Nat) (t : Timeline σ) : Timeline σ :=
  let limit := t.now + grace
  let t := { t with writer := t.writer.cancel }.run s plan limit
  { t with
    writer := t.writer.close t.writer.hasEnded
    now    := if t.writer.hasEnded then t.now else limit }

end Timeline

end PacketLog
