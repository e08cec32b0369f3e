import PacketLog.Config.Environment
import PacketLog.Config.Resolve

/-!
# Config — Source

Sources of configuration and how they combine.  Sources are read in ascending order of their
rank, those of equal rank in the order given, and each is put on top of the ones before it.  The
first that cannot be read is reported, and only what they say together is checked.
-/

namespace PacketLog.Config

/-- The rank of a source.  A higher one decides. -/
inductive Rank where
  | defaults
  | file
  | environment
deriving DecidableEq, Repr

/-- The place of a rank in the order. -/
def Rank.weight : Rank → Nat
  | .defaults    => 10
  | .file        => 20
  | .environment => 50

/-- A source: its rank, and the layer it gives or why it gives none. -/
structure Source where
  rank   : Rank
  loaded : Except ConfigError Layer

namespace Source

/-- The sources in ascending order of rank, those of equal rank in the order given. -/
def sorted (sources : List Source) : List Source :=
  sources.mergeSort fun a b => a.rank.weight ≤ b.rank.weight

/-- The layers of the sources, each on top of those before it, on top of `below`. -/
def stack (below : Layer) : List Source → Except ConfigError Layer
  | []      => .ok below
  | s :: ss => do
    let layer ← s.loaded
    stack (below.overlaid layer) ss

/-- The configuration that sources describe together. -/
def combine (sources : List Source) : Except ConfigError Settings := do
  let layer ← stack {} (sorted sources)
  layer.resolve

end Source

/-- The contents of a place where a file may be. -/
inductive Contents where
  | missing
  | directory
  /-- A file that may not be read. -/
  | denied
  | bytes (bs : List UInt8)

/-- A place where a document may be, as it is found there. -/
structure File where
  path     : String
  contents : Contents

/-- The source that says nothing. -/
def Source.defaults : Source := ⟨.defaults, .ok {}⟩

/-- The layer a file describes.  A missing file says nothing. -/
def File.layer (f : File) : Except ConfigError Layer :=
  match f.contents with
  | .missing   => .ok {}
  | .directory => .error (.unreadable f.path .isDirectory)
  | .denied    => .error (.unreadable f.path .denied)
  | .bytes bs  =>
    match Text.Utf8.decode? bs with
    | none    => .error (.unreadable f.path .notText)
    | some cs =>
      match Layer.ofDocument (String.ofList cs) with
      | .ok layer    => .ok layer
      | .error fault => .error (.badFile f.path fault)

/-- A file as a source. -/
def Source.file (f : File) : Source := ⟨.file, f.layer⟩

/-- Environment variables as a source. -/
def Source.environment (vs : Variables) : Source := ⟨.environment, vs.layer⟩

/-- The configuration of a program, from its document and its environment. -/
def Settings.load (f : File) (vs : Variables) : Except ConfigError Settings :=
  Source.combine [.defaults, .file f, .environment vs]

end PacketLog.Config
