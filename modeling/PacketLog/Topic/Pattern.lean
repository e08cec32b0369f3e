/-!
# Topic — Pattern

Topic filters.  A filter is a sequence of levels parted by slashes.  A level is either a name,
which stands for itself, or `+`, which stands for any one level, or `#`, which stands for any
number of levels and may only come last.

`Pattern.parse` says which texts are filters and what is wrong with the others; the fault reported
is that of the leftmost bad level.  `Pattern.selects` is the relation between filters and topics:
a filter that begins with a wildcard selects no topic that begins with a dollar sign, and `a/#`
selects `a` itself.
-/

namespace PacketLog.Topic

/-- The levels of a topic or of a filter: the parts between slashes, of which there is always at
least one. -/
def levelsOf : List Char → List (List Char)
  | []      => [[]]
  | c :: cs =>
    if c = '/' then [] :: levelsOf cs
    else match levelsOf cs with
      | []      => [[c]]
      | l :: ls => (c :: l) :: ls

/-- A level of a filter. -/
inductive Level where
  | name (cs : List Char)
  /-- Any one level. -/
  | single
  /-- Any number of levels. -/
  | multi
deriving DecidableEq, Repr

/-- A level that is not a name. -/
def Level.isWildcard : Level → Bool
  | .name _ => false
  | .single => true
  | .multi  => true

/-- A reason why a text is no filter. -/
inductive PatternError where
  | empty
  | nul
  /-- A level contains `#` and is not `#`, or is not the last. -/
  | misplacedMulti
  /-- A level contains `+` and is not `+`. -/
  | mixedSingle
deriving DecidableEq, Repr

/-- The wording of a reason. -/
def PatternError.message : PatternError → String
  | .empty          => "pattern is empty"
  | .nul            => "pattern contains a NUL character"
  | .misplacedMulti => "'#' must occupy the whole last level"
  | .mixedSingle    => "'+' must occupy a whole level"

/-- The level that a part of a filter is, given whether it is the last. -/
def Level.parse (last : Bool) (part : List Char) : Except PatternError Level :=
  if part.contains '#' then
    if part = ['#'] && last then .ok .multi else .error .misplacedMulti
  else if part.contains '+' then
    if part = ['+'] then .ok .single else .error .mixedSingle
  else .ok (.name part)

/-- The levels that the parts of a filter are. -/
def parseLevels : List (List Char) → Except PatternError (List Level)
  | []      => .ok []
  | p :: ps => do
    let l ← Level.parse ps.isEmpty p
    let ls ← parseLevels ps
    .ok (l :: ls)

/-- A topic filter with its levels. -/
structure Pattern where
  text   : String
  levels : List Level
deriving DecidableEq, Repr

namespace Pattern

/-- The filter a text is, or why it is none. -/
def parse (text : String) : Except PatternError Pattern :=
  if text.toList = [] then .error .empty
  else if text.toList.contains '\x00' then .error .nul
  else do
    let levels ← parseLevels (levelsOf text.toList)
    .ok { text, levels }

end Pattern

/-- The levels of a filter select the levels of a topic. -/
def selectsLevels : List Level → List (List Char) → Bool
  | [], ts               => ts.isEmpty
  | .multi :: _, _       => true
  | .single :: ls, ts    =>
    match ts with
    | []      => false
    | _ :: ts => selectsLevels ls ts
  | .name n :: ls, ts    =>
    match ts with
    | []      => false
    | t :: ts => n = t && selectsLevels ls ts

namespace Pattern

/-- The filter begins with a wildcard. -/
def startsWild (p : Pattern) : Bool :=
  match p.levels with
  | []     => false
  | l :: _ => l.isWildcard

/-- The filter selects the topic. -/
def selects (p : Pattern) (topic : String) : Bool :=
  if topic.toList.head? = some '$' && p.startsWild then false
  else selectsLevels p.levels (levelsOf topic.toList)

end Pattern

end PacketLog.Topic
