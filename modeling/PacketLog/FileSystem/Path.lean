/-!
# FileSystem — Path

Paths as texts.  A path is a sequence of names with `/` between them.  Empty names and the name `.`
say nothing, except that a `/` in front makes the path absolute.
-/

namespace PacketLog.Path

/-- What stands between the slashes. -/
def segments (path : String) : List (List Char) := path.toList.splitOn '/'

/-- A segment that does not lead anywhere. -/
def isBlank (segment : List Char) : Bool := segment.isEmpty || segment == ['.']

/-- The path begins at the root. -/
def isAbsolute (path : String) : Bool := path.toList.head? == some '/'

/-- A path as seen from a directory. -/
def join (directory path : String) : String :=
  if isAbsolute path then path else directory ++ "/" ++ path

/-- The last name of a path and the path without it.  There is no such name if the path leads
nowhere, or upwards at its end. -/
def split? (path : String) : Option (String × String) :=
  match (segments path).reverse.dropWhile isBlank with
  | []           => none
  | name :: rest =>
    if name = ['.', '.'] then none
    else
      let above := (rest.dropWhile isBlank).reverse
      let parent := List.intercalate ['/'] above
      some (String.ofList name,
        if parent.isEmpty && isAbsolute path then "/" else String.ofList parent)

end PacketLog.Path
