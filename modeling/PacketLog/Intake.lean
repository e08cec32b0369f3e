import PacketLog.Counters
import PacketLog.Line
import PacketLog.Policy
import PacketLog.Queue

/-!
# Intake

Where events come in.  An event is judged by the policy in force at that moment and its line, if
it has one, is offered to the queue.  An event whose kind is off is turned away before it is
classified.
-/

namespace PacketLog

/-- Lines on their way to the sink, and the counters. -/
structure Spool where
  queue    : Queue LogLine
  counters : Counters := {}

/-- The line under a policy of what an event becomes, if it becomes anything. -/
def Policy.lineOf (p : Policy) (r : Record) : Option LogLine :=
  (p.keep? r).map (·.line p.format p.verbose)

/-- What became of an event. -/
inductive Disposition where
  | queued
  | filtered
  /-- It was to be logged, but the queue was full. -/
  | dropped
deriving DecidableEq, Repr

namespace Spool

/-- Count an event as filtered. -/
def turnAway (s : Spool) : Disposition × Spool :=
  (.filtered, { s with counters := s.counters.addFiltered })

/-- Offer a line to the queue, and count what became of it. -/
def enqueue (s : Spool) (line : LogLine) : Disposition × Spool :=
  match s.queue.offer line with
  | (true, queue)  => (.queued, { queue, counters := s.counters.addQueued })
  | (false, queue) => (.dropped, { queue, counters := s.counters.addDropped 1 })

/-- Judge an event by a policy, and queue its line. -/
def accept (s : Spool) (p : Policy) (e : Event) : Disposition × Spool :=
  let s := { s with counters := s.counters.addSeen }
  if p.rejects (.ofCode e.code) e.direction then s.turnAway
  else
    match p.lineOf e.record with
    | none      => s.turnAway
    | some line => s.enqueue line

end Spool

/-- The policies and the spool. -/
structure Intake where
  store : PolicyStore
  spool : Spool

/-- Hand in an event. -/
def Intake.accept (i : Intake) (e : Event) : Disposition × Intake :=
  let (d, spool) := i.spool.accept i.store.current e
  (d, { i with spool })

end PacketLog
