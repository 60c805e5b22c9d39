import Rebuild.FileTree
import Rebuild.Text.Bytewise
import Rebuild.Text.CharClass

/-!
# Patterns

A pattern is text some of whose characters are quoted. Outside quotes a star stands for any text, a
question mark for any character, brackets for one of the characters that they list, and a backslash
quotes the character after it. A pattern with such a character stands for the paths that match it,
component by component; names that begin with a dot only match a pattern that does.
-/

namespace Rebuild.Shell

/-- Characters, each with whether it is quoted. -/
abbrev Pattern := List (Char × Bool)

namespace Pattern

/-- The text of a pattern. -/
def text (p : Pattern) : List Char := p.map (·.1)

/-- The pattern that an unquoted text is. -/
def ofText (text : String) : Pattern := text.toList.map (·, false)

/-- Whether a pattern can match any text but its own. -/
def isGlob (p : Pattern) : Bool :=
  p.any fun (c, isQuoted) => !isQuoted && (c = '*' || c = '?' || c = '[')

/-- The name of a class up to its end, and the pattern after it. -/
def className? (p : Pattern) : Option (String × Pattern) :=
  let name := p.takeWhile fun (c, _) => c.isAlpha
  match p.drop name.length with
  | (':', false) :: (']', false) :: rest => some (String.ofList (text name), rest)
  | _ => none

/-- Reads what stands between brackets, in at most `n` steps: the items, and the pattern after the
closing bracket, which does not close anything as long as `isFirst` holds. -/
def items? : (n : Nat) → (isFirst : Bool) → Pattern → Option (List CharItem × Pattern)
  | 0, _, _ | _, _, [] => none
  | n + 1, isFirst, (c, isQuoted) :: rest =>
    if c = ']' && !isQuoted && !isFirst then some ([], rest)
    else
      let named := if c = '[' && !isQuoted then
          match rest with
          | (':', false) :: rest => className? rest
          | _ => none
        else none
      match named with
      | some (name, rest) => (items? n false rest).map fun (items, after) =>
          (.named name :: items, after)
      | none =>
        let (c, rest) := match c, isQuoted, rest with
          | '\\', false, (d, _) :: rest => (d, rest)
          | _, _, _ => (c, rest)
        let (item, rest) := match rest with
          | ('-', false) :: (high, highQuoted) :: after =>
            if high = ']' && !highQuoted then (CharItem.range c c, rest) else (CharItem.range c high, after)
          | _ => (CharItem.range c c, rest)
        (items? n false rest).map fun (items, after) => (item :: items, after)

/-- Reads a bracket after its beginning: whether it excludes what it lists, the items, and the pattern
after it. -/
def bracket? (p : Pattern) : Option (Bool × List CharItem × Pattern) :=
  match p with
  | ('!', false) :: rest => (items? p.length true rest).map fun found => (true, found)
  | _ => (items? p.length.succ true p).map fun found => (false, found)

/-- Whether a pattern matches a text, in at most `n` steps. -/
def matchesWithin : (n : Nat) → Pattern → List Char → Bool
  | 0, _, _ => false
  | _ + 1, [], t => t.isEmpty
  | n + 1, ('*', false) :: rest, t =>
    matchesWithin n rest t || (!t.isEmpty && matchesWithin n (('*', false) :: rest) t.tail)
  | n + 1, ('?', false) :: rest, t => !t.isEmpty && matchesWithin n rest t.tail
  | n + 1, ('[', false) :: rest, c :: t =>
    match bracket? rest with
    | some (excludes, items, rest) =>
      items.any (·.has c) != excludes && matchesWithin n rest t
    | none => c = '[' && matchesWithin n rest t
  | n + 1, ('\\', false) :: (c, _) :: rest, d :: t => c = d && matchesWithin n rest t
  | n + 1, (c, _) :: rest, d :: t => c = d && matchesWithin n rest t
  | _, _, [] => false

/-- Whether a pattern matches a text. -/
def matchesText (p : Pattern) (t : List Char) : Bool :=
  matchesWithin (p.length + t.length + 1) p t

/-- The first of some lengths for which the front of a text matches. -/
def matchingLength? (p : Pattern) (t : List Char) (lengths : List Nat) : Option Nat :=
  lengths.find? fun n => p.matchesText (t.take n)

/-- A text without the shortest or longest front that matches. -/
def trimFront (p : Pattern) (longest : Bool) (t : List Char) : List Char :=
  let lengths := List.range (t.length + 1)
  t.drop ((p.matchingLength? t (if longest then lengths.reverse else lengths)).getD 0)

/-- A text without the shortest or longest end that matches. -/
def trimBack (p : Pattern) (longest : Bool) (t : List Char) : List Char :=
  let lengths := List.range (t.length + 1)
  let kept := (if longest then lengths else lengths.reverse).find? fun n =>
    p.matchesText (t.drop n)
  t.take (kept.getD t.length)

/-! ## Paths -/

/-- The components of a pattern, `component` being the part of the current one already read. -/
def components (component : Pattern) : Pattern → List Pattern
  | [] => [component]
  | ('/', _) :: rest => component :: components [] rest
  | c :: rest => components (component ++ [c]) rest

/-- The names in a directory that match a component. -/
def namesIn (t : FileTree) (here : Place) (directory : String) (component : Pattern) :
    List String :=
  match t.lookUp here (if directory = "" then "." else Bytewise.toText directory) with
  | .ok (place, .directory _ _) =>
    let showsHidden := component.text.head? = some '.'
    let names := (t.names place).map Bytewise.ofText
    (if showsHidden then ["." , ".."] ++ names else names).filter fun name =>
      (showsHidden || name.toList.head? ≠ some '.') && component.matchesText name.toList
  | _ => []

/-- The paths that match components. Each path is written after `written`. -/
def pathsFrom (t : FileTree) (here : Place) (written : String) : List Pattern → List String
  | [] => []
  | [last] =>
    if last.isGlob then (namesIn t here written last).map (written ++ ·)
    else
      let path := written ++ String.ofList last.text
      match t.lookAt here (Bytewise.toText path) with
      | .ok _ => [path]
      | .error _ => []
  | component :: rest =>
    let found := if component.isGlob then namesIn t here written component
      else [String.ofList component.text]
    found.flatMap fun name => pathsFrom t here (written ++ name ++ "/") rest

/-- The paths that a pattern stands for, or its own text if there are none. -/
def paths (t : FileTree) (here : Place) (p : Pattern) : List String :=
  let own := String.ofList p.text
  if !p.isGlob then [own]
  else
    let found := pathsFrom t here "" (components [] p)
    if found.isEmpty then [own] else found

end Pattern

end Rebuild.Shell
