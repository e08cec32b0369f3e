import PacketLog.Config.Source
import PacketLog.FileSystem.Path

/-!
# FileSystem

The files a log is configured by and written to.

A place is given by the names that lead to it from the root.  What stands there is a directory, a
file, or one of two devices: one takes everything and keeps nothing, and the other is always full.
There may be no permission to use a file, or to create one in a directory.
A path is followed name by name, and every place on the way has to be a directory.
-/

namespace PacketLog

/-- Why a file cannot be used. -/
inductive FileError where
  | notFound
  | denied
  | notDirectory
  | isDirectory
  | full
  | nameTooLong
  | nulInName
deriving DecidableEq, Repr

/-- The wording. -/
def FileError.message : FileError → String
  | .notFound     => "No such file or directory (os error 2)"
  | .denied       => "Permission denied (os error 13)"
  | .notDirectory => "Not a directory (os error 20)"
  | .isDirectory  => "Is a directory (os error 21)"
  | .full         => "No space left on device (os error 28)"
  | .nameTooLong  => "File name too long (os error 36)"
  | .nulInName    => "file name contained an unexpected NUL byte"

/-- What can stand at a place. -/
inductive Node where
  | directory
  /-- A directory in which nothing can be created, with the reason that is given. -/
  | sealed (refusal : FileError)
  | file (bytes : List UInt8)
  /-- A file that may be neither read nor written. -/
  | locked
  /-- A device that takes everything and keeps nothing. -/
  | void
  /-- A device that is always full. -/
  | full
deriving DecidableEq, Repr

/-- The node can have others below it. -/
def Node.isDirectory : Node → Bool
  | .directory => true
  | .sealed _  => true
  | _          => false

/-- The names that lead to a place, from the root. -/
abbrev Place := List String

/-- What stands where. -/
structure FileSystem where
  /-- The root apart. -/
  nodes : List (Place × Node) := []
  /-- The place relative paths begin at. -/
  here  : Place := []

namespace FileSystem

/-- What stands at a place. -/
def node? (fs : FileSystem) : Place → Option Node
  | []    => some .directory
  | place => fs.nodes.lookup place

/-- The file system without what stands at a place. -/
def erase (fs : FileSystem) (place : Place) : FileSystem :=
  { fs with nodes := fs.nodes.filter fun n => n.1 ≠ place }

/-- The file system with something put at a place. -/
def put (fs : FileSystem) (place : Place) (n : Node) : FileSystem :=
  { fs with nodes := (place, n) :: (fs.erase place).nodes }

/-- The greatest size of a name, in bytes. -/
def nameLimit : Nat := 255

/-- The size, in bytes, that a path does not reach. -/
def pathLimit : Nat := 4096

/-- Follow one name from a place. -/
def enter (fs : FileSystem) (place : Place) (name : String) : Except FileError Place :=
  match fs.node? place with
  | none   => .error .notFound
  | some n =>
    if !n.isDirectory then .error .notDirectory
    else if name = "." || name = "" then .ok place
    else if name = ".." then .ok place.dropLast
    else if nameLimit < name.utf8ByteSize then .error .nameTooLong
    else .ok (place ++ [name])

/-- The names of a path. -/
def names (path : String) : List String := (Path.segments path).map String.ofList

/-- Follow names from the place a path begins at. -/
def walk (fs : FileSystem) (path : String) (names : List String) : Except FileError Place :=
  if path.toList.contains '\x00' then .error .nulInName
  else if path.isEmpty then .error .notFound
  else if pathLimit ≤ path.utf8ByteSize then .error .nameTooLong
  else names.foldlM fs.enter (if Path.isAbsolute path then [] else fs.here)

/-- The place a path leads to, where there may be nothing. -/
def follow (fs : FileSystem) (path : String) : Except FileError Place := fs.walk path (names path)

/-- What a path leads to. -/
def find (fs : FileSystem) (path : String) : Except FileError (Place × Node) := do
  let place ← fs.follow path
  match fs.node? place with
  | some n => return (place, n)
  | none   => throw .notFound

/-- There is something at the end of a path. -/
def has (fs : FileSystem) (path : String) : Bool := (fs.find path).toOption.isSome

/-- There is a directory at the end of a path. -/
def hasDirectory (fs : FileSystem) (path : String) : Bool :=
  ((fs.find path).toOption.map (·.2.isDirectory)).getD false

/-- What a path leads to, for someone who wants to read a document there. -/
def contents (fs : FileSystem) (path : String) : Config.Contents :=
  match fs.find path with
  | .error _         => .missing
  | .ok (_, .file b) => .bytes b
  | .ok (_, .locked) => .denied
  | .ok (_, n)       => if n.isDirectory then .directory else .bytes []

/-- What a path leads to, as a place for a document. -/
def document (fs : FileSystem) (path : String) : Config.File := ⟨path, fs.contents path⟩

/-- The place of a file that is opened to be written to, and the file system with an empty file
there if there was nothing.  A path that ends in a slash or in dots can only lead to a directory;
its last name is not followed. -/
def openFile (fs : FileSystem) (path : String) : Except FileError (Place × FileSystem) := do
  let names := ((names path).reverse.dropWhile String.isEmpty).reverse
  if path.endsWith "/" || names.getLast?.all fun n => n = "." || n = ".." then
    let _ ← fs.walk path (names.dropLast ++ ["."])
    throw .isDirectory
  else
    let place ← fs.walk path names
    match fs.node? place with
    | some .locked => throw .denied
    | some n       => if n.isDirectory then throw .isDirectory else return (place, fs)
    | none         =>
      match fs.node? place.dropLast with
      | some (.sealed refusal) => throw refusal
      | _                      => return (place, fs.put place (.file []))

/-- The file system with directories all the way along a path, where there was nothing. -/
def makeDirectory (fs : FileSystem) (path : String) : FileSystem :=
  let start : FileSystem × Place := (fs, if Path.isAbsolute path then [] else fs.here)
  let step : FileSystem × Place → String → FileSystem × Place := fun (fs, place) name =>
    match fs.enter place name with
    | .error _   => (fs, place)
    | .ok place' => (if (fs.node? place').isNone then fs.put place' .directory else fs, place')
  ((names path).foldl step start).1

/-- Write bytes to the end of what stands at a place. -/
def append (fs : FileSystem) (place : Place) (bytes : List UInt8) : Except FileError FileSystem :=
  match fs.node? place with
  | some (.file old) => .ok (fs.put place (.file (old ++ bytes)))
  | some .full       => .error .full
  | _                => .ok fs

end FileSystem

end PacketLog
