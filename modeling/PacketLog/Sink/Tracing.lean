import PacketLog.Sink

/-!
# Sink — Tracing

A sink that hands every line on to the diagnostics of the host.
-/

namespace PacketLog

/-- What is reported of a line that is handed on. -/
structure Traced where
  level   : String
  kind    : String
  client  : String
  message : String
deriving DecidableEq, Repr

/-- The sink that hands every line on to the diagnostics of the host. -/
def Sink.tracing : Sink (List Traced) where
  name := "tracing"
  write lines l :=
    (.replies .ok,
      lines ++ [{ level := "INFO", kind := l.kind.name, client := l.client, message := l.text }])
  flush lines := (.replies .ok, lines)

end PacketLog
