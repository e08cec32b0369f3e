import PacketLog.Config.Error
import PacketLog.Config.Layer
import PacketLog.Text.Utf8

/-!
# Config — Environment

The layer that environment variables describe.  A variable that is empty or no text counts as
unset.  A truth value is `true`, in letters of either case, or `1`; every other text is false, so
that it is never at fault.  The others are checked in a fixed order and the first that is wrong is
reported.
-/

namespace PacketLog.Config

/-- The variables that are set, with their values as bytes. -/
abbrev Environment := List (String × List UInt8)

namespace Environment

/-- The value of a variable, if it is a text that is not empty. -/
def get? (env : Environment) (name : String) : Option String :=
  match env.lookup name with
  | none    => none
  | some bs =>
    match Text.Utf8.decode? bs with
    | none    => none
    | some cs => if cs = [] then none else some (String.ofList cs)

end Environment

/-- The number with these decimal digits, of which there is at least one. -/
def digits? (cs : List Char) : Option Nat :=
  if cs = [] then none
  else cs.foldlM (fun n c => if c.isDigit then some (10 * n + (c.toNat - 48)) else none) 0

/-- A number of `bits` bits in decimal, which a plus sign may precede. -/
def natural? (bits : Nat) (s : String) : Option Nat :=
  let n? := match s.toList with
    | '+' :: r => digits? r
    | cs       => digits? cs
  n?.filter (· < Nat.pow 2 bits)

/-- A number of sixty-four bits in decimal, which a sign may precede. -/
def signed? (s : String) : Option Int :=
  let n? : Option Int := match s.toList with
    | '-' :: r => (digits? r).map fun n => -(n : Int)
    | '+' :: r => (digits? r).map fun n => (n : Int)
    | cs       => (digits? cs).map fun n => (n : Int)
  n?.filter fun n => Int64.minValue.toInt ≤ n && n ≤ Int64.maxValue.toInt

/-- The variables of one program: those whose names begin with the prefix and an underscore. -/
structure Variables where
  env  : Environment
  stem : String

namespace Variables

/-- The full name of a variable. -/
def fullName (vs : Variables) (name : String) : String := vs.stem ++ "_" ++ name

/-- The value of a variable. -/
def get? (vs : Variables) (name : String) : Option String := vs.env.get? (vs.fullName name)

/-- The truth value of a variable. -/
def flag? (vs : Variables) (name : String) : Option Bool :=
  (vs.get? name).map fun v => Text.sameLetters v "true" || v = "1"

/-- The value of a variable that must be of a type. -/
def read? {α : Type} (vs : Variables) (name : String) (type : VariableType)
    (parse : String → Option α) : Except ConfigError (Option α) :=
  match vs.get? name with
  | none   => .ok none
  | some v =>
    match parse v with
    | some a => .ok (some a)
    | none   => .error (.badVariable (vs.fullName name) type v)

/-- The kind of sink of this name, in letters of either case. -/
def sinkKind? (v : String) : Option SinkKind :=
  if Text.sameLetters v "tracing" then some .tracing
  else if Text.sameLetters v "file" then some .file
  else none

/-- The settings on what is logged. -/
def policy (vs : Variables) : Except ConfigError PolicyLayer := do
  let format ← vs.read? "FORMAT" .lineFormat LineFormat.ofName?
  let maxBytes ← vs.read? "PAYLOAD_MAX_BYTES" .i64 signed?
  let include? := vs.flag? "PAYLOAD"
  .ok {
    enabled := vs.flag? "ENABLED"
    verbose := vs.flag? "VERBOSE"
    format
    payload :=
      if include?.isSome || maxBytes.isSome then some { include?, maxBytes } else none }

/-- The settings on queue, writer and retries. -/
def pipeline (vs : Variables) : Except ConfigError PipelineLayer := do
  let queueCapacity ← vs.read? "QUEUE_CAPACITY" .usize (natural? 64)
  let batchSize ← vs.read? "BATCH_SIZE" .usize (natural? 64)
  let maxAttempts ← vs.read? "RETRY_MAX_ATTEMPTS" .u32 (natural? 32)
  let grace ← vs.read? "SHUTDOWN_GRACE_MS" .u64 (natural? 64)
  .ok { queueCapacity, batchSize, maxAttempts, grace }

/-- The settings on where lines go.  A path without a kind means a file. -/
def sink (vs : Variables) : Except ConfigError SinkLayer := do
  let path := vs.get? "SINK_PATH"
  let kind ← vs.read? "SINK_TYPE" .sinkKind sinkKind?
  .ok { kind := kind.or (path.map fun _ => .file), path }

/-- The layer the variables describe. -/
def layer (vs : Variables) : Except ConfigError Layer := do
  let policy ← vs.policy
  let pipeline ← vs.pipeline
  let sink ← vs.sink
  .ok { policy := some policy, pipeline := some pipeline, sink := some sink }

end Variables

end PacketLog.Config
