import PacketLog.Intake
import PacketLog.Retry

/-!
# Writer

The one that takes lines out of the queue and gives them to the sink.

The writer sleeps until the queue holds a permit.  Then it takes batches until it finds the queue
empty.  The lines of a batch are written one after the other, each with its own retries; the first
that is given up ends the batch, and the lines from there on are lost.  After every batch the sink
is flushed.  A writer that has been cancelled finishes the round it is in, makes one more, and ends.

`Writer.step?` says what a writer does next.  It is a function of the writer and of what comes to
it from outside: the answer of the sink, or the end of a wait.  The clock is not part of it.
-/

namespace PacketLog

/-- How a writer came to its end. -/
inductive Ending where
  /-- It was cancelled, and found the queue empty after that. -/
  | finished
  /-- An operation broke down. -/
  | brokeDown
  /-- It was stopped before it came to an end by itself. -/
  | aborted
deriving DecidableEq, Repr

/-- Where a writer is. -/
inductive Phase where
  /-- It waits for a permit. -/
  | idle
  /-- It is about to take a batch. -/
  | taking
  /-- The sink has `line`, which it failed to write `failed` times before; `rest` comes after it. -/
  | writing (line : LogLine) (rest : List LogLine) (failed : Nat)
  /-- It pauses for `nanos` nanoseconds before it gives `line` to the sink again. -/
  | waiting (line : LogLine) (rest : List LogLine) (failed : Nat) (nanos : Nat)
  | flushing
  /-- It has ended with `lines` in hand. -/
  | ended (how : Ending) (lines : List LogLine)
deriving DecidableEq

namespace Phase

/-- The lines of the batch in hand that have been neither written nor given up. -/
def unsettled : Phase → List LogLine
  | .writing line rest _   => line :: rest
  | .waiting line rest _ _ => line :: rest
  | .ended _ lines         => lines
  | _                      => []

end Phase

/-- How a writer works. -/
structure Plan where
  /-- The most lines in a batch, where zero means one. -/
  batchSize : Nat
  /-- When the failed writes of a line are repeated.  The lines that are brought to the sink are
  counted from zero: each has waits of its own. -/
  retry     : Nat → Retry

/-- A writer, with the queue and the counters it shares with the intake. -/
structure Writer where
  spool     : Spool
  phase     : Phase := .idle
  /-- How many lines of the batch in hand are not settled. -/
  inFlight  : Nat := 0
  /-- How many lines have been brought to the sink before the one in hand, or the next. -/
  brought   : Nat := 0
  /-- It has been told to end. -/
  cancelled : Bool := false
  /-- It has noticed, and ends when it next finds the queue empty. -/
  ending    : Bool := false

/-- What lets a writer go on. -/
inductive Stimulus where
  /-- Nothing, for a writer that can go on by itself. -/
  | nothing
  /-- The sink answers. -/
  | reply (r : Reply)
  /-- A wait is over. -/
  | timer
deriving DecidableEq, Repr

namespace Writer

/-- The queue the writer takes lines from. -/
def queue (w : Writer) : Queue LogLine := w.spool.queue

/-- The writer has come to its end, in one way or the other. -/
def hasEnded (w : Writer) : Bool :=
  match w.phase with
  | .ended .. => true
  | _         => false

/-- The writer with other counters. -/
def count (w : Writer) (f : Counters → Counters) : Writer :=
  { w with spool := { w.spool with counters := f w.spool.counters } }

/-- The writer with another queue. -/
def withQueue (w : Writer) (q : Queue LogLine) : Writer :=
  { w with spool := { w.spool with queue := q } }

/-! ### Steps -/

/-- Give the next line to the sink, or flush when there is none. -/
def handOver (w : Writer) : List LogLine → Writer
  | []           => { w with phase := .flushing }
  | line :: rest => { w with phase := .writing line rest 0 }

/-- Wake up, if there is a reason to. -/
def wake? (w : Writer) : Option Writer :=
  if w.cancelled then some { w with phase := .taking, ending := true }
  else
    match w.queue.poll with
    | (true, q)  => some { w.withQueue q with phase := .taking }
    | (false, _) => none

/-- Take a batch of up to `n` lines.  When there are none the round is over. -/
def takeBatch (n : Nat) (w : Writer) : Writer :=
  match w.queue.take n with
  | ([], _)       => { w with phase := if w.ending then .ended .finished [] else .idle }
  | (l :: ls, q)  =>
    { w.withQueue q with inFlight := (l :: ls).length }.handOver (l :: ls)

/-- Count the line in hand as written, and go on with the rest of its batch. -/
def settle (w : Writer) (rest : List LogLine) : Writer :=
  { w.count .addWritten with
    inFlight := w.inFlight - 1
    brought  := w.brought + 1 }.handOver rest

/-- Give up the lines from the one in hand on. -/
def abandon (w : Writer) (lines : List LogLine) : Writer :=
  { w.count fun c => c.addSinkError.addDropped (.ofNat lines.length) with
    inFlight := 0
    brought  := w.brought + 1
    phase    := .flushing }

/-- Stop here, with the lines in hand. -/
def stop (how : Ending) (w : Writer) : Writer :=
  { w with phase := .ended how w.phase.unsettled }

/-- Go on after an answer to the `failed + 1`st attempt to write a line. -/
def afterWrite (r : Retry) (w : Writer) (line : LogLine) (rest : List LogLine) (failed : Nat)
    (reply : Reply) : Writer :=
  match r.decide failed reply with
  | .done              => w.settle rest
  | .giveUp _          => w.abandon (line :: rest)
  | .repeatAfter nanos => { w with phase := .waiting line rest (failed + 1) nanos }
  | .breakDown         => w.stop .brokeDown

/-- Go on after the answer to a flush, which may as well have failed. -/
def afterFlush (w : Writer) : Reply → Writer
  | .broke => w.stop .brokeDown
  | _      => { w with phase := .taking }

/-- What a writer does next when it gets a stimulus, unless that is not what it waits for. -/
def step? (plan : Plan) (w : Writer) : Stimulus → Option Writer
  | .nothing =>
    match w.phase with
    | .idle   => w.wake?
    | .taking => some (w.takeBatch (max plan.batchSize 1))
    | _       => none
  | .reply r =>
    match w.phase with
    | .writing line rest failed =>
      some (w.afterWrite (plan.retry w.brought) line rest failed r)
    | .flushing                 => some (w.afterFlush r)
    | _                         => none
  | .timer =>
    match w.phase with
    | .waiting line rest failed _ => some { w with phase := .writing line rest failed }
    | _                           => none

/-! ### From outside -/

/-- Tell the writer to end. -/
def cancel (w : Writer) : Writer := { w with cancelled := true }

/-- Count every line that is queued or in hand as lost, where the writer has ended. -/
def discard (how : Ending) (w : Writer) : Writer :=
  let (lines, q) := w.queue.takeAll
  { (w.withQueue q).count (·.addDropped (.ofNat (w.inFlight + lines.length))) with
    inFlight := 0
    phase    := .ended how [] }

/-- The writer has come to its end by itself, and in order. -/
def hasFinished (w : Writer) : Bool :=
  match w.phase with
  | .ended .finished _ => true
  | _                  => false

/-- Have done with the writer, which has ended in time or not.  If it has finished in time nothing
is left to do.  Else it is stopped, even if it has just come to an end, and its lines are lost. -/
def close (w : Writer) (inTime : Bool) : Writer :=
  match inTime, w.phase with
  | true, .ended .finished _ => w
  | true, .ended how _       => w.discard how
  | _, _                     => w.discard .aborted

/-! ### A round comes to its end

Four numbers, each of which counts for more than all those after it: the lines that are queued or
in hand, the permits, the attempts that are left for the line in hand, and the way to the end of
the round.  Every step makes them smaller. -/

/-- The lines that are queued or in hand. -/
def load (w : Writer) : Nat := w.queue.size + w.phase.unsettled.length

/-- The number of permits. -/
def permits (w : Writer) : Nat := w.queue.permit.toNat

/-- The attempts that are left for the line in hand, or that there are for the next. -/
def attempts (plan : Plan) (w : Writer) : Nat :=
  let all := (plan.retry w.brought).maxAttempts.toNat
  match w.phase with
  | .writing _ _ failed   => all - failed
  | .waiting _ _ failed _ => all - failed
  | .ended ..             => 0
  | _                     => all

/-- How far a phase is from the end of the round. -/
def distance (w : Writer) : Nat :=
  match w.phase with
  | .ended ..    => 0
  | .writing ..  => 1
  | .waiting ..  => 2
  | .taking      => if w.ending then 3 else 6
  | .flushing    => if w.ending then 4 else 7
  | .idle        => 5

/-- The four numbers are smaller for the first writer. -/
def Closer (plan : Plan) (w₁ w₂ : Writer) : Prop :=
  Prod.Lex (· < ·) (Prod.Lex (· < ·) (Prod.Lex (· < ·) (· < ·)))
    (w₁.load, w₁.permits, w₁.attempts plan, w₁.distance)
    (w₂.load, w₂.permits, w₂.attempts plan, w₂.distance)

variable {plan : Plan}

theorem closer_iff {w₁ w₂ : Writer} :
    Closer plan w₁ w₂ ↔
      w₁.load < w₂.load ∨ w₁.load = w₂.load ∧
        (w₁.permits < w₂.permits ∨ w₁.permits = w₂.permits ∧
          (w₁.attempts plan < w₂.attempts plan ∨ w₁.attempts plan = w₂.attempts plan ∧
            w₁.distance < w₂.distance)) := by
  simp [Closer, Prod.lex_def]

theorem stop_closer {w : Writer} {how : Ending} (h : w.hasEnded = false) :
    Closer plan (w.stop how) w := by
  rw [closer_iff]
  refine .inr ⟨rfl, .inr ⟨rfl, ?_⟩⟩
  have hd : 0 < w.distance := by
    unfold distance
    split <;> simp_all [hasEnded] <;> split <;> omega
  have h₀ : (w.stop how).attempts plan = 0 := rfl
  have h₁ : (w.stop how).distance = 0 := rfl
  omega

theorem wake?_closer {w w' : Writer} (hp : w.phase = .idle) (h : w.wake? = some w') :
    Closer plan w' w := by
  rw [closer_iff]
  unfold wake? at h
  split at h
  · cases h
    simp [load, permits, attempts, distance, queue, Phase.unsettled, hp]
  · split at h
    · rename_i q hq
      cases h
      simp only [Queue.poll, Prod.mk.injEq] at hq
      obtain ⟨hq, rfl⟩ := hq
      simp only [queue] at hq
      simp [load, permits, queue, withQueue, Queue.size, Phase.unsettled, hp, hq]
    · simp at h

theorem takeBatch_closer {w : Writer} (n : Nat) (hp : w.phase = .taking) :
    Closer plan (w.takeBatch n) w := by
  rw [closer_iff]
  have hd : w.distance = if w.ending then 3 else 6 := by simp [distance, hp]
  unfold takeBatch
  split
  · by_cases he : w.ending
    · simp [load, permits, attempts, distance, queue, Phase.unsettled, hp, he]
      omega
    · simp [load, permits, attempts, distance, queue, Phase.unsettled, hp, he]
  · rename_i l ls q hq
    simp only [Queue.take, Prod.mk.injEq] at hq
    obtain ⟨hq, rfl⟩ := hq
    have hn := congrArg List.length hq
    simp only [List.length_take, List.length_cons] at hn
    refine .inr ⟨?_, .inr ⟨rfl, .inr ⟨?_, ?_⟩⟩⟩
    · simp [load, queue, handOver, withQueue, Queue.size, Phase.unsettled, hp] at hn ⊢
      omega
    · simp [attempts, handOver, withQueue, hp]
    · rw [hd]
      simp only [distance, handOver]
      split <;> omega

theorem afterWrite_closer {w : Writer} {line : LogLine} {rest : List LogLine}
    {failed : Nat} (reply : Reply) (hp : w.phase = .writing line rest failed) :
    Closer plan (w.afterWrite (plan.retry w.brought) line rest failed reply) w := by
  unfold afterWrite
  split
  · rw [closer_iff]
    left
    cases rest <;> simp [settle, count, handOver, load, queue, Phase.unsettled, hp]
  · rw [closer_iff]
    left
    simp [abandon, count, load, queue, Phase.unsettled, hp]
  · rename_i nanos hd
    have := Retry.lt_of_decide_eq_repeatAfter hd
    rw [closer_iff]
    refine .inr ⟨by simp [load, queue, Phase.unsettled, hp], .inr ⟨rfl, .inl ?_⟩⟩
    simp [attempts, hp]
    omega
  · exact stop_closer (by simp [hasEnded, hp])

theorem afterFlush_closer {w : Writer} (reply : Reply) (hp : w.phase = .flushing) :
    Closer plan (w.afterFlush reply) w := by
  unfold afterFlush
  split
  · exact stop_closer (by simp [hasEnded, hp])
  · rw [closer_iff]
    by_cases he : w.ending <;>
      simp [load, permits, attempts, distance, queue, Phase.unsettled, hp, he]

theorem step?_closer {w w' : Writer} {s : Stimulus} (h : w.step? plan s = some w') :
    Closer plan w' w := by
  cases s with
  | nothing =>
    simp only [step?] at h
    split at h
    · rename_i hp
      exact wake?_closer hp h
    · rename_i hp
      cases h
      exact takeBatch_closer _ hp
    · simp at h
  | reply r =>
    simp only [step?] at h
    split at h
    · rename_i hp
      cases h
      exact afterWrite_closer r hp
    · rename_i hp
      cases h
      exact afterFlush_closer r hp
    · simp at h
  | timer =>
    simp only [step?] at h
    split at h
    · rename_i hp
      cases h
      rw [closer_iff]
      simp [load, permits, attempts, distance, queue, Phase.unsettled, hp]
    · simp at h

end Writer

end PacketLog
