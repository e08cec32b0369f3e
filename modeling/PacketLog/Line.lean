import PacketLog.Config.Layer
import PacketLog.Line.JsonForm
import PacketLog.Line.TextForm

/-!
# Line

A line of the log, with what a sink may want to know about it besides its text.
-/

namespace PacketLog

/-- A line of the log. -/
structure LogLine where
  kind   : PacketKind
  client : String
  time   : Instant
  text   : String
deriving DecidableEq

/-- The text of the line of a record. -/
def Record.lineText (format : LineFormat) (verbose : Bool) (r : Record) : String :=
  String.ofList <| match format with
    | .text => Line.textForm (Line.fields verbose r)
    | .json => r.jsonForm verbose

/-- The line of a record. -/
def Record.line (format : LineFormat) (verbose : Bool) (r : Record) : LogLine where
  kind   := r.kind
  client := r.client
  time   := r.time
  text   := r.lineText format verbose

end PacketLog
