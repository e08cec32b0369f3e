import PacketLog.Sink

/-!
# Sink — Scripted

A sink that does what it is told beforehand, and writes nothing.
-/

namespace PacketLog

/-- The outcomes still to come.  Writes for which there is none have the outcome `fallback`, and
flushes for which there is none succeed. -/
structure Script where
  writes   : List Outcome := []
  fallback : Outcome := .replies .ok
  flushes  : List Outcome := []

/-- The sink that follows a script. -/
def Sink.scripted : Sink Script where
  name := "scripted"
  write s _ :=
    match s.writes with
    | []      => (s.fallback, s)
    | o :: os => (o, { s with writes := os })
  flush s :=
    match s.flushes with
    | []      => (.replies .ok, s)
    | o :: os => (o, { s with flushes := os })

end PacketLog
