import PacketLog.FileSystem
import PacketLog.Sink
import PacketLog.Text.Utf8

/-!
# Sink — File

A sink that appends lines to a file.

The file is opened with the first line, and again after a failure.  Writing is one step behind: a
write is accepted at once, and what becomes of it is seen by the next operation on the same handle.
A write that learns so of a failure writes nothing and lets go of the handle; a flush reports the
failure and keeps the handle.
-/

namespace PacketLog

/-- An open file. -/
structure FileHandle where
  /-- Where the file is, unless it has been deleted since. -/
  place?   : Option Place
  /-- What became of the last write, as long as nobody has been told. -/
  failure? : Option FileError := none
deriving DecidableEq

/-- A log file and all that is around it. -/
structure FileLog where
  path    : String
  files   : FileSystem
  handle? : Option FileHandle := none

namespace FileLog

/-- A failure to open the file.  Only a lack of permission stays. -/
def openError (path : String) (e : FileError) : SinkError :=
  let cause := s!"failed to open {path}: {e.message}"
  if e = .denied then .permanent cause else .transient cause

/-- The handle that is to be written to. -/
def open? (l : FileLog) : Except FileError (FileHandle × FileSystem) :=
  match l.handle? with
  | some h => .ok (h, l.files)
  | none   => (l.files.openFile l.path).map fun (place, files) => ({ place? := place }, files)

/-- Write bytes by a handle. -/
def append (l : FileLog) (h : FileHandle) (bytes : List UInt8) : FileLog :=
  match h.place? with
  | none       => { l with handle? := some h }
  | some place =>
    match l.files.append place bytes with
    | .ok files => { l with files, handle? := some h }
    | .error e  => { l with handle? := some { h with failure? := some e } }

/-- Write a text and a line feed. -/
def write (l : FileLog) (text : String) : Reply × FileLog :=
  match l.open? with
  | .error e         => (.failed (openError l.path e), l)
  | .ok (h, files) =>
    match h.failure? with
    | some e => (.failed (.transient s!"failed to write to file: {e.message}"),
        { l with handle? := none })
    | none   => (.ok, { l with files }.append h (Text.Utf8.encode text ++ [10]))

/-- Wait for the last write. -/
def flush (l : FileLog) : Reply × FileLog :=
  match l.handle? with
  | some { place?, failure? := some e } =>
    (.failed (.transient s!"failed to flush file: {e.message}"),
      { l with handle? := some { place? } })
  | _ => (.ok, l)

/-- Delete the file.  A handle that is open keeps the deleted file. -/
def delete (l : FileLog) : FileLog :=
  match l.files.find l.path with
  | .ok (place, .file _) =>
    { l with
      files   := l.files.erase place
      handle? := l.handle?.map fun h =>
        if h.place? = some place then { h with place? := none } else h }
  | _ => l

/-- The bytes of the file, if it is one. -/
def content? (l : FileLog) : Option (List UInt8) :=
  match l.files.find l.path with
  | .ok (_, .file bytes) => some bytes
  | _                    => none

end FileLog

/-- The sink that appends lines to a file. -/
def Sink.file : Sink FileLog where
  name := "file"
  write l line :=
    let (reply, l) := l.write line.text
    (.replies reply, l)
  flush l :=
    let (reply, l) := l.flush
    (.replies reply, l)

end PacketLog
