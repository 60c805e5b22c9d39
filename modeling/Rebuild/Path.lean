/-!
# Build paths

A build path names a file relative to the build root, or absolutely. Two spellings that differ only
by `.` components, repeated separators or `dir/..` pairs name the same file, and `Path.canonical`
chooses one spelling for all of them. It works on the text alone: it walks the components and keeps
the stack of those still standing.
-/

namespace Rebuild.Path

/-- Cuts text at each separator, `component` being the part of the current component already read.
There is one component more than there are separators. -/
def cutComponents (component : List Char) : List Char → List (List Char)
  | [] => [component]
  | '/' :: rest => component :: cutComponents [] rest
  | c :: rest => cutComponents (component ++ [c]) rest

/-- The components of a path, empty ones included. -/
def components (path : List Char) : List (List Char) :=
  cutComponents [] path

def isAbsolute (path : List Char) : Bool :=
  path.head? = some '/'

/-- Where a walk stands after one more component. The stack has the innermost component first; `..`
leaves the innermost one, stays at an absolute root, and otherwise climbs above the start. -/
def walk (absolute : Bool) (stack : List (List Char)) (component : List Char) : List (List Char) :=
  if component = [] ∨ component = ['.'] then stack
  else if component = ['.', '.'] then
    match stack with
    | top :: below => if top = ['.', '.'] then component :: stack else below
    | [] => if absolute then [] else [component]
  else component :: stack

/-- The place that a path names, as components from the outermost to the innermost. -/
def place (path : List Char) : List (List Char) :=
  ((components path).foldl (walk (isAbsolute path)) []).reverse

/-- The text of a place. The start itself is written `.`, and an absolute root `/`. -/
def spell (absolute : Bool) (place : List (List Char)) : List Char :=
  let joined := ['/'].intercalate place
  if absolute then '/' :: joined else if joined.isEmpty then ['.'] else joined

/-- The canonical spelling of a path. -/
def canonicalChars (path : List Char) : List Char :=
  spell (isAbsolute path) (place path)

/-- The canonical spelling of a path. -/
def canonical (path : String) : String :=
  String.ofList (canonicalChars path.toList)

/-- The text of a path that is meant relative to a directory. -/
def join (directory path : String) : String :=
  if isAbsolute path.toList || directory = "" then path
  else if directory.toList.getLast? = some '/' then directory ++ path
  else directory ++ "/" ++ path

end Rebuild.Path
