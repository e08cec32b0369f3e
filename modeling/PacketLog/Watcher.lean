import PacketLog.FileSystem
import PacketLog.Policy

/-!
# Watcher

Installs the policy of a document each time the document changes.

The directory the document is in is watched, and only changes of what has the name of the document
count.  When the document is gone or is refused, the policy in force stays.
-/

namespace PacketLog

/-- Why a document cannot be watched. -/
inductive WatchError where
  /-- The path does not end in a name. -/
  | noName (path : String)
  | noDirectory (directory : String)
deriving DecidableEq, Repr

namespace WatchError

/-- The path that is at fault. -/
def path : WatchError → String
  | .noName path      => path
  | .noDirectory path => path

/-- The wording, where it is not left to the host. -/
def message? : WatchError → Option String
  | .noName path   => some s!"failed to watch {path}: config path has no file name"
  | .noDirectory _ => none

end WatchError

/-- One who watches a document. -/
structure Watcher where
  path      : String
  directory : String
  name      : String
deriving DecidableEq, Repr

namespace Watcher

/-- Watch the document at a path. -/
def start (fs : FileSystem) (path : String) : Except WatchError Watcher :=
  match Path.split? path with
  | none                => .error (.noName path)
  | some (name, parent) =>
    let directory := if parent.isEmpty then "." else parent
    if fs.has directory then .ok { path, directory, name }
    else .error (.noDirectory directory)

/-- A change at a path concerns the document. -/
def concerns (w : Watcher) (fs : FileSystem) (changed : String) : Bool :=
  match Path.split? changed with
  | none                => false
  | some (name, parent) =>
    name == w.name && (fs.follow parent).toOption == (fs.follow w.directory).toOption

/-- Notice a change at a path. -/
def notice (w : Watcher) (fs : FileSystem) (vs : Config.Variables) (changed : String)
    (store : PolicyStore) : PolicyStore :=
  if w.concerns fs changed && fs.has w.path then
    (store.reload (Config.Settings.load (fs.document w.path) vs)).2
  else store

end Watcher

end PacketLog
