import Rebuild.Text.CharClass

/-!
# Regular expressions

A regular expression matches parts of a text. Of the parts that it matches, the one that begins first
counts, and of those the longest one. Groups remember the parts that they matched, which the expression
can ask for again.

`ends` follows all ways to match at once, as a set of positions. `walk` follows one way after the other,
greedily, and gathers the groups.
-/

namespace Rebuild

/-- A place between characters that asks for something around it. -/
inductive Anchor where
  | lineStart | lineEnd | textStart | textEnd | wordStart | wordEnd | wordEdge | noWordEdge
deriving DecidableEq, Repr

/-- A regular expression. `again` matches the text of a group once more. -/
inductive Regex where
  | nothing
  | one (set : CharSet)
  | anchor (anchor : Anchor)
  | follow (first second : Regex)
  | either (first second : Regex)
  | many (low : Nat) (high : Option Nat) (body : Regex)
  | group (number : Nat) (body : Regex)
  | again (number : Nat)
deriving Repr

instance : Inhabited Regex := ⟨.nothing⟩

/-- A text in which an expression looks for matches. The flags tell whether the case of letters does not
matter, and whether lines in it have edges. -/
structure Subject where
  text : Array Char
  foldsCase : Bool
  byLines : Bool

namespace Subject

/-- Whether a character can stand in a word. -/
def isWordChar (c : Char) : Bool := c.isAlphanum || c = '_'

/-- Whether the character after a position belongs to a set. -/
def follows (s : Subject) (set : CharSet) (i : Nat) : Bool :=
  match s.text[i]? with
  | some c => if s.foldsCase then set.hasFolded c else set.has c
  | none => false

/-- Whether a position is where an anchor wants to be. -/
def isAnchored (s : Subject) (i : Nat) (anchor : Anchor) : Bool :=
  let wordBefore := 0 < i && (s.text[i - 1]?).any isWordChar
  let wordAfter := (s.text[i]?).any isWordChar
  match anchor with
  | .lineStart => i = 0 || (s.byLines && s.text[i - 1]? = some '\n')
  | .lineEnd => i = s.text.size || (s.byLines && s.text[i]? = some '\n')
  | .textStart => i = 0
  | .textEnd => i = s.text.size
  | .wordStart => !wordBefore && wordAfter
  | .wordEnd => wordBefore && !wordAfter
  | .wordEdge => wordBefore != wordAfter
  | .noWordEdge => wordBefore == wordAfter

/-- The text between two positions. -/
def slice (s : Subject) (i j : Nat) : List Char :=
  (s.text.extract i j).toList

end Subject

/-- Positions in ascending order. -/
abbrev Positions := List Nat

namespace Positions

/-- The positions of two lists. -/
def union (a b : Positions) : Positions :=
  match a, b with
  | [], b => b
  | a, [] => a
  | x :: xs, y :: ys =>
    if x < y then x :: union xs (y :: ys)
    else if y < x then y :: union (x :: xs) ys
    else x :: union xs ys
termination_by a.length + b.length

/-- Applies a step a number of times. -/
def times (step : Positions → Positions) : Nat → Positions → Positions
  | 0, from_ => from_
  | n + 1, from_ => times step n (step from_)

/-- All positions that at most `n` steps lead to, `fresh` being those from which no step was taken. -/
def closure (step : Positions → Positions) : (n : Nat) → (fresh all : Positions) → Positions
  | 0, _, all => all
  | n + 1, fresh, all =>
    let next := (step fresh).filter (!all.contains ·)
    if next.isEmpty then all else closure step n next (union all next)

/-- All positions that lie behind characters of a set in a row, in a text with `n` characters left after
a position. -/
def sweep (s : Subject) (set : CharSet) : (n i : Nat) → (isActive : Bool) → Positions → Positions
  | 0, i, isActive, from_ => if isActive || from_.head? = some i then [i] else []
  | n + 1, i, isActive, from_ =>
    let isHere := from_.head? = some i
    let rest := if isHere then from_.tail else from_
    let isActive := isActive || isHere
    if !isActive && rest.isEmpty then []
    else
      let others := sweep s set n (i + 1) (isActive && s.follows set i) rest
      if isActive then i :: others else others

end Positions

/-- The parts that groups matched last: their numbers, and where the parts begin and end. -/
abbrev Groups := List (Nat × Nat × Nat)

/-- A match: where it begins and ends, and the groups. -/
structure RegexMatch where
  start : Nat
  stop : Nat
  groups : Groups
deriving Repr

namespace RegexMatch

/-- The part of a group, where 0 is the whole match. -/
def part? (m : RegexMatch) (group : Nat) : Option (Nat × Nat) :=
  if group = 0 then some (m.start, m.stop) else m.groups.lookup group

end RegexMatch

namespace Regex

/-- Where matches can end that begin at some positions. For a part that is asked for again every end is
taken to be possible. -/
def ends (s : Subject) : Regex → Positions → Positions
  | nothing, from_ => from_
  | one set, from_ => from_.filterMap fun i => if s.follows set i then some (i + 1) else none
  | anchor e, from_ => from_.filter (s.isAnchored · e)
  | follow a b, from_ => ends s b (ends s a from_)
  | either a b, from_ => (ends s a from_).union (ends s b from_)
  | many low high a, from_ =>
    match low, high, a with
    | 0, none, one set =>
      match from_ with
      | [] => []
      | i :: _ => Positions.sweep s set (s.text.size - i) i false from_
    | _, _, _ =>
      let step (from_ : Positions) : Positions := ends s a from_
      let start := Positions.times step low from_
      Positions.closure step ((high.map (· - low)).getD (s.text.size + 1)) start start
  | group _ a, from_ => ends s a from_
  | again _, from_ =>
    match from_ with
    | [] => []
    | i :: _ => (List.range (s.text.size + 1 - i)).map (i + ·)

/-- What comes after a part was matched up to a position. -/
abbrev Onward := Nat → Groups → Option Groups

/-- Repeats a step greedily, at most `n` times, `count` times being done. -/
def walkMany (step : Nat → Groups → Onward → Option Groups) (low : Nat) (high : Option Nat) :
    (n count : Nat) → Nat → Groups → Onward → Option Groups
  | 0, _, i, groups, next => next i groups
  | n + 1, count, i, groups, next =>
    let further := if high.all (count < ·) then
        step i groups fun j groups =>
          if j = i && low ≤ count then none
          else walkMany step low high n (count + 1) j groups next
      else none
    match further with
    | some found => some found
    | none => if low ≤ count then next i groups else none

/-- Follows the ways to match from a position, one after the other, until what comes next succeeds. -/
def walk (s : Subject) : Regex → Nat → Groups → Onward → Option Groups
  | nothing, i, groups, next => next i groups
  | one set, i, groups, next => if s.follows set i then next (i + 1) groups else none
  | anchor e, i, groups, next => if s.isAnchored i e then next i groups else none
  | follow a b, i, groups, next => walk s a i groups fun j groups => walk s b j groups next
  | either a b, i, groups, next =>
    match walk s a i groups next with
    | some found => some found
    | none => walk s b i groups next
  | many low high a, i, groups, next =>
    walkMany (fun i groups next => walk s a i groups next) low high (s.text.size - i + low + 1) 0 i
      groups next
  | group n a, i, groups, next => walk s a i groups fun j groups => next j ((n, i, j) :: groups)
  | again n, i, groups, next =>
    match groups.lookup n with
    | none => none
    | some (a, b) =>
      let fold (c : Char) : Char := if s.foldsCase then c.toLower else c
      let length := b - a
      if i + length ≤ s.text.size &&
          (s.slice i (i + length)).map fold = (s.slice a b).map fold then
        next (i + length) groups
      else none

/-- Whether an expression asks for a part again. -/
def hasAgain : Regex → Bool
  | follow a b | either a b => a.hasAgain || b.hasAgain
  | many _ _ a | group _ a => a.hasAgain
  | again _ => true
  | _ => false

/-- Whether an expression has groups. -/
def hasGroup : Regex → Bool
  | follow a b | either a b => a.hasGroup || b.hasGroup
  | many _ _ a => a.hasGroup
  | group _ _ => true
  | _ => false

/-- How many groups an expression has. -/
def groupCount : Regex → Nat
  | follow a b | either a b => max a.groupCount b.groupCount
  | many _ _ a => a.groupCount
  | group n a => max n a.groupCount
  | _ => 0

/-- The way to match between two positions that is found first. -/
def groupsBetween? (r : Regex) (s : Subject) (i j : Nat) : Option Groups :=
  r.walk s i [] fun stop groups => if stop = j then some groups else none

/-- Where matches end that begin at a position, the longest first. -/
def stops (r : Regex) (s : Subject) (i : Nat) : List Nat :=
  let all := (r.ends s [i]).reverse
  if r.hasAgain then all.filter fun j => (r.groupsBetween? s i j).isSome else all

/-- The match between two positions. -/
def between (r : Regex) (s : Subject) (i j : Nat) : RegexMatch :=
  ⟨i, j, if r.hasGroup then (r.groupsBetween? s i j).getD [] else []⟩

/-- The longest match that begins at a position. -/
def matchAt? (r : Regex) (s : Subject) (i : Nat) : Option RegexMatch :=
  (r.stops s i).head?.map (r.between s i)

/-- Whether an expression matches a part of a text that begins at a position or after it. For a part that
is asked for again the answer can be too good. -/
def canMatch (r : Regex) (s : Subject) (i : Nat) : Bool :=
  !(r.ends s ((List.range (s.text.size + 1 - i)).map (i + ·))).isEmpty

/-- The first match that begins at a position or after it, the longest of them. -/
def search? (r : Regex) (s : Subject) (i : Nat) : Option RegexMatch :=
  if r.canMatch s i then
    (List.range (s.text.size + 1 - i)).findSome? fun k => r.matchAt? s (i + k)
  else none

/-- Whether an expression matches a part of a text. -/
def matchesIn (r : Regex) (s : Subject) : Bool :=
  if r.hasAgain then (r.search? s 0).isSome else r.canMatch s 0

/-- All matches that do not overlap, at most `n` of them, given how the first one at a position or after
it is found. An empty match counts only where no match ends. -/
def allWithin (size : Nat) (find? : Nat → Option RegexMatch) : (n i : Nat) → (wasEnd : Bool) →
    List RegexMatch
  | 0, _, _ => []
  | n + 1, i, wasEnd =>
    match find? i with
    | none => []
    | some m =>
      if m.stop = m.start then
        let others := if m.start < size then allWithin size find? n (m.start + 1) false else []
        if wasEnd && m.start = i then others else m :: others
      else m :: allWithin size find? n m.stop true

/-- All matches that do not overlap. -/
def all (r : Regex) (s : Subject) : List RegexMatch :=
  allWithin s.text.size (r.search? s) (2 * s.text.size + 2) 0 false

end Regex

end Rebuild
