/-!
# Counters

What has become of events and lines so far.  A counter starts over after 2⁶⁴.
-/

namespace PacketLog

/-- What has become of events and lines so far. -/
structure Counters where
  /-- Events handed in. -/
  seen       : UInt64 := 0
  /-- Events of which nothing is logged. -/
  filtered   : UInt64 := 0
  /-- Lines the queue has accepted. -/
  queued     : UInt64 := 0
  /-- Lines the sink has taken. -/
  written    : UInt64 := 0
  /-- Lines that were refused by the queue or given up by the writer. -/
  dropped    : UInt64 := 0
  /-- Batches that were given up. -/
  sinkErrors : UInt64 := 0
deriving DecidableEq, Repr

namespace Counters

/-- Count an event handed in. -/
def addSeen (c : Counters) : Counters := { c with seen := c.seen + 1 }

/-- Count an event of which nothing is logged. -/
def addFiltered (c : Counters) : Counters := { c with filtered := c.filtered + 1 }

/-- Count an accepted line. -/
def addQueued (c : Counters) : Counters := { c with queued := c.queued + 1 }

/-- Count a line the sink has taken. -/
def addWritten (c : Counters) : Counters := { c with written := c.written + 1 }

/-- Count lines that are lost. -/
def addDropped (c : Counters) (n : UInt64) : Counters := { c with dropped := c.dropped + n }

/-- Count a batch that was given up. -/
def addSinkError (c : Counters) : Counters := { c with sinkErrors := c.sinkErrors + 1 }

end Counters

end PacketLog
