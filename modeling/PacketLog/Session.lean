import PacketLog.Sink.File
import PacketLog.Sink.Tracing
import PacketLog.Timeline
import PacketLog.Watcher

/-!
# Session

The log from its start to its end: policies, intake, writer and sink put together as a
configuration says.

A session does not start when no packet would ever be logged, when there is nothing to run the
writer, or when its document cannot be watched.
-/

namespace PacketLog

/-- Why a session does not start. -/
inductive StartError where
  /-- Every kind of packet is off in both directions. -/
  | nothingEnabled
  | noRuntime
  | badConfig (e : Config.ConfigError)
  | unwatchable (e : WatchError)

/-- The wording, where there is one of its own. -/
def StartError.message? : StartError → Option String
  | .nothingEnabled =>
    some "extension start prevented: every packet kind is disabled, nothing would be logged"
  | .noRuntime      => some "no tokio runtime available to run the sink writer"
  | .badConfig _    => none
  | .unwatchable e  => e.message?

/-- The log at work, with a sink whose states are `σ`. -/
structure Session (σ : Type) where
  store    : PolicyStore
  timeline : Timeline σ
  plan     : Plan
  /-- The milliseconds the writer has to come to its end. -/
  grace    : Nat
  watcher? : Option Watcher

/-- The random numbers that waits are varied with: one for each repetition of the writes of each
line that is brought to the sink. -/
abbrev Draws := Nat → UInt32 → Float

/-- How the writer works under a configuration. -/
def Plan.ofSettings (draws : Draws) (s : Config.PipelineSettings) : Plan where
  batchSize := s.batchSize
  retry n   := (Backoff.ofSettings 2 s).retry .double (draws n)

namespace Session

variable {σ : Type}

/-- Start a session with a configuration and a sink. -/
def start (settings : Config.Settings) (draws : Draws) (sink : σ) (hasRuntime : Bool)
    (fs : FileSystem) (watched? : Option String) : Except StartError (Session σ) := do
  if settings.policy.kinds.noneEnabled then throw .nothingEnabled
  if !hasRuntime then throw .noRuntime
  let watcher? ← watched?.mapM fun path => (Watcher.start fs path).mapError .unwatchable
  return {
    store    := .new settings.policy
    timeline := { writer := { spool := { queue := .new settings.pipeline.queueCapacity } }, sink }
    plan     := .ofSettings draws settings.pipeline
    grace    := settings.pipeline.grace
    watcher? }

/-- The spool. -/
def spool (s : Session σ) : Spool := s.timeline.writer.spool

/-- Hand in an event. -/
def accept (s : Session σ) (e : Event) : Disposition × Session σ :=
  let (d, spool) := s.spool.accept s.store.current e
  (d, { s with timeline := { s.timeline with writer := { s.timeline.writer with spool } } })

/-- Install the policy of a document, unless it is refused. -/
def reload (s : Session σ) (document : String) : Except Config.ConfigError Unit × Session σ :=
  let (r, store) := s.store.reload (Config.Settings.ofDocument document)
  (r, { s with store })

/-- Pause for `ms` milliseconds. -/
def sleep (s : Session σ) (sink : Sink σ) (ms : Nat) : Session σ :=
  { s with timeline := s.timeline.sleep sink s.plan ms }

/-- Stop, and learn what has become of everything. -/
def stop (s : Session σ) (sink : Sink σ) : Counters × Session σ :=
  let timeline := s.timeline.shutdown sink s.plan s.grace
  (timeline.writer.spool.counters, { s with timeline })

end Session

/-! ### A session in a home directory -/

/-- The sink a configuration asks for, one or the other. -/
inductive HostLog where
  | tracing (lines : List Traced)
  | file (l : FileLog)

namespace HostLog

/-- Nothing is logged yet. -/
def new (fs : FileSystem) : Config.SinkSettings → HostLog
  | .tracing   => .tracing []
  | .file path => .file { path, files := fs }

/-- What has been handed on to the host. -/
def traced : HostLog → List Traced
  | .tracing lines => lines
  | .file _        => []

/-- The files as they are now, where `fs` are those at the start. -/
def files (fs : FileSystem) : HostLog → FileSystem
  | .tracing _ => fs
  | .file l    => l.files

end HostLog

/-- Either sink. -/
def Sink.host : Sink HostLog where
  name := "host"
  write
    | .tracing lines, line => (Sink.tracing.write lines line).map id .tracing
    | .file l, line        => (Sink.file.write l line).map id .file
  flush
    | .tracing lines => (Sink.tracing.flush lines).map id .tracing
    | .file l        => (Sink.file.flush l).map id .file

/-- Start a session with the document in a home directory.  The document is watched if there is a
directory for it. -/
def Session.startAt (home : String) (fs : FileSystem) (vs : Config.Variables) (draws : Draws) :
    Except StartError (Session HostLog) := do
  let path := Path.join home Config.documentPath
  let settings ← (Config.Settings.load (fs.document path) vs).mapError .badConfig
  let hasDirectory := (Path.split? path).any fun (_, parent) => fs.hasDirectory parent
  Session.start settings draws (HostLog.new fs settings.sink) true fs
    (if hasDirectory then some path else none)

end PacketLog
