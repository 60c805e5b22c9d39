import Rebuild.Text.Regex.Reading

/-!
# Scripts for editing lines

A script is a row of commands, each with addresses that select the lines for which it runs. Lines go
through a buffer, one after the other, and a second buffer holds what is put aside.
-/

namespace Rebuild.Shell.Sed

/-- An expression with its flags. Without an expression the one that was used last is meant. -/
structure Search where
  regex : Option Regex
  foldsCase : Bool
  byLines : Bool
deriving Repr

/-- What selects a line. -/
inductive Address where
  | line (number : Nat)
  | every (first step : Nat)
  | last
  | search (search : Search)
deriving Repr

/-- What ends a range of lines. The last two count from its first line on, to a number of further lines
or to a line whose number is a multiple. -/
inductive RangeEnd where
  | address (address : Address)
  | further (lines : Nat)
  | multiple (number : Nat)
deriving Repr

/-- The lines for which a command runs. -/
structure Selection where
  start : Option Address
  stop : Option RangeEnd
  isNegated : Bool
deriving Repr

/-- A part of what replaces a match: text, a part of the match, or a change of case, which holds for one
character or until it is ended. -/
inductive Replacement where
  | text (text : List Char)
  | part (group : Nat)
  | case (letter : Char)
deriving DecidableEq, Repr

/-- What is replaced by what: all matches from a certain one on, or only that one. After that the line can
be printed, run as a command line whose output takes its place, and written to a file. -/
structure Substitution where
  search : Search
  replacement : List Replacement
  first : Nat
  isGlobal : Bool
  prints : Bool
  executes : Bool
  writes : Option String
deriving Repr

/-- When a jump is made. -/
inductive JumpWhen where
  | always | replaced | notReplaced
deriving DecidableEq, Repr

/-- What a command does. Places in the script are numbers of commands. -/
inductive Action where
  | beginBlock (stop : Nat)
  | endBlock
  | label (name : String)
  | jump (when_ : JumpWhen) (label : String)
  | append (text : List Char)
  | insert (text : List Char)
  | change (text : List Char)
  | delete
  | deleteFirst
  | print
  | printFirst
  | list (width : Option Nat)
  | execute (words : List Char)
  | number
  | fileName
  | next
  | appendNext
  | copyToHold
  | appendToHold
  | copyFromHold
  | appendFromHold
  | exchange
  | clear
  | quit (status : Nat) (prints : Bool)
  | readFile (path : String)
  | readLine (path : String)
  | write (path : String)
  | writeFirst (path : String)
  | substitute (s : Substitution)
  | translate (pairs : List (Char × Char))
deriving Repr

structure Instruction where
  selection : Selection
  action : Action
deriving Repr

instance : Inhabited Instruction := ⟨⟨⟨none, none, false⟩, .endBlock⟩⟩

namespace Replacement

/-- Changes the case of all letters. -/
def inCase (mode : Option Char) (chars : List Char) : List Char :=
  match mode with
  | some 'U' => chars.map Char.toUpper
  | some 'L' => chars.map Char.toLower
  | _ => chars

/-- What replaces a match, given the text of its parts, the case that holds and the case of the next
character. -/
def fill (part : Nat → List Char) : (mode once : Option Char) → List Replacement → List Char
  | _, _, [] => []
  | mode, _, .case c :: rest =>
    if c = 'u' || c = 'l' then fill part mode (some c) rest
    else fill part (if c = 'E' then none else some c) none rest
  | mode, once, piece :: rest =>
    let chars := match piece with
      | .text chars => chars
      | .part group => part group
      | .case _ => []
    match inCase mode chars with
    | [] => fill part mode once rest
    | c :: others =>
      let c := match once with
        | some 'u' => c.toUpper
        | some _ => c.toLower
        | none => c
      c :: others ++ fill part mode none rest

/-- The largest number of a group that a replacement asks for. -/
def maxGroup (parts : List Replacement) : Nat :=
  (parts.map fun | part n => n | _ => 0).foldl max 0

end Replacement

/-- A text with matches replaced: those that count are replaced, and the others stay. -/
def replaceIn (s : Substitution) (t : Subject) (found : List RegexMatch) : List Char :=
  let (shown, last) := found.foldl (fun ((shown, last) : List (List Char) × Nat) m =>
    let part (group : Nat) : List Char :=
      ((m.part? group).map fun (i, j) => t.slice i j).getD []
    let filled := Replacement.fill part none none s.replacement
    (filled :: t.slice last m.start :: shown, m.stop)) ([], 0)
  (t.slice last t.text.size :: shown).reverse.flatten

/-- The matches that a substitution replaces. -/
def chosen (s : Substitution) (found : List RegexMatch) : List RegexMatch :=
  let rest := found.drop (s.first - 1)
  if s.isGlobal then rest else rest.take 1

end Rebuild.Shell.Sed
