import Rebuild.Manifest.Clause
import Rebuild.Path

/-!
# How build statements are written

A build statement as it may be written: its paths in their sections, each with the gap in front of
it. A gap is made of spaces, after which the line may go on in others. In a path the characters that
would end it are escaped.
-/

namespace Rebuild.Manifest

/-- A path that can be written down: canonical, and free of the characters that no escape brings
back. -/
structure PlainPath where
  text : String
  ne_empty : text ≠ ""
  canonical : Path.canonical text = text
  plain : ∀ c ∈ text.toList, c ≠ '\t' ∧ c ≠ '|' ∧ isLineEnd c = false

/-- Whether a text is a path that can be written down. -/
def isPlainPath (text : String) : Bool :=
  text ≠ "" && Path.canonical text = text &&
    text.toList.all fun c => c ≠ '\t' && c ≠ '|' && !isLineEnd c

def PlainPath.of (text : String) (h : isPlainPath text = true) : PlainPath :=
  have hparts : (text ≠ "" ∧ Path.canonical text = text) ∧
      ∀ c ∈ text.toList, (c ≠ '\t' ∧ c ≠ '|') ∧ isLineEnd c = false := by
    simpa [isPlainPath] using h
  ⟨text, hparts.1.1, hparts.1.2, fun c hc =>
    ⟨(hparts.2 c hc).1.1, (hparts.2 c hc).1.2, (hparts.2 c hc).2⟩⟩

/-- A name that can be written down. -/
structure IsWord (name : String) : Prop where
  ne_empty : name ≠ ""
  ident : ∀ c ∈ name.toList, isIdentChar c = true

/-- The characters that are escaped in a path. -/
def isEscaped (c : Char) : Bool := c = '$' || c = ' ' || c = ':'

def escapeChar (c : Char) : List Char := if isEscaped c then ['$', c] else [c]

def escapePath (path : List Char) : List Char := path.flatMap escapeChar

def spaces (n : Nat) : List Char := List.replicate n ' '

/-- The lines in which a gap goes on, each with its indentation. -/
structure Continuations where
  indents : List (List Char)
  blank : ∀ indent ∈ indents, ∀ c ∈ indent, isSpaceOrTab c = true

def Continuations.text (lines : Continuations) : List Char :=
  lines.indents.flatMap fun indent => '$' :: '\n' :: indent

/-- A gap in a statement: a space, maybe more of them, and maybe further lines. -/
structure Gap where
  more : Nat
  lines : Continuations

def Gap.text (gap : Gap) : List Char := spaces (gap.more + 1) ++ gap.lines.text

/-- A gap of one space. -/
def Gap.single : Gap := ⟨0, ⟨[], by simp⟩⟩

/-- A gap, or none. -/
def gapText (gap : Option Gap) : List Char := (gap.map Gap.text).getD []

/-- Paths with the gaps in front of them. -/
abbrev Entries := List (Gap × PlainPath)

namespace Entries

def text (entries : Entries) : List Char :=
  entries.flatMap fun (gap, path) => gap.text ++ escapePath path.text.toList

def paths (entries : Entries) : List String := entries.map (·.2.text)

end Entries

/-- What sets the sections of a statement apart. -/
inductive Separator where
  | pipe | pipe2 | pipeAt
deriving DecidableEq

namespace Separator

def kind : Separator → TokenKind
  | pipe => .pipe
  | pipe2 => .pipe2
  | pipeAt => .pipeAt

def text : Separator → List Char
  | pipe => ['|']
  | pipe2 => ['|', '|']
  | pipeAt => ['|', '@']

end Separator

/-- A section of a statement: left out, or a separator with a gap in front of it and paths after
it. -/
abbrev Section := Option (Gap × Entries)

namespace Section

def text (separator : Separator) : Section → List Char
  | none => []
  | some (gap, entries) => gap.text ++ separator.text ++ entries.text

def paths (sec : Section) : List String := (sec.map (·.2.paths)).getD []

end Section

/-- The first line of a build statement as it may be written. -/
structure WrittenBuild where
  explicitOuts : Entries
  ne_nil : explicitOuts ≠ []
  implicitOuts : Section
  /-- The gap in front of the colon. -/
  colonGap : Option Gap
  /-- How many spaces more than one stand in front of the rule. -/
  ruleSpaces : Nat
  ruleName : String
  explicitIns : Entries
  implicitIns : Section
  orderOnlyIns : Section
  validations : Section
  /-- The gap at the end of the line. -/
  endGap : Option Gap

namespace WrittenBuild

variable (line : WrittenBuild)

def outsText : List Char :=
  line.explicitOuts.text ++ line.implicitOuts.text .pipe ++ gapText line.colonGap

def insText : List Char :=
  line.explicitIns.text ++ line.implicitIns.text .pipe ++ line.orderOnlyIns.text .pipe2 ++
    line.validations.text .pipeAt ++ gapText line.endGap

/-- The line after the keyword. -/
def body : List Char :=
  line.outsText ++ [':'] ++ spaces (line.ruleSpaces + 1) ++ line.ruleName.toList ++ line.insText

def text : List Char := "build".toList ++ line.body

/-- The paths of all outputs. -/
def outs : List String := line.explicitOuts.paths ++ line.implicitOuts.paths

end WrittenBuild

end Rebuild.Manifest
