import Rebuild.Shell.Awk.Lexeme
import Rebuild.Text.Regex.Reading

/-!
# Searching in records

The regular expressions of record programs are extended ones with the escapes of texts. What separates
fields and records is given as text: a blank, a character, or an expression.
-/

namespace Rebuild.Shell.Awk

/-- How expressions are written in record programs. -/
def dialect : RegexDialect :=
  { isExtended := true, isStrict := false, isLoose := true, needsOperands := true
    quotesInBrackets := true, hasWords := false, hasDigits := false
    controls := [('a', '\x07'), ('b', '\x08'), ('f', '\x0c'), ('n', '\n'), ('r', '\r'), ('t', '\t'),
      ('v', '\x0b')] }

/-- A text in which numbers after backslashes are replaced by the characters that they stand for, in at
most `n` steps. -/
def withNumbered : (n : Nat) → List Char → List Char
  | n + 1, '\\' :: c :: rest =>
    let octal := ((c :: rest).takeWhile isOctal).take 3
    let hex := (rest.takeWhile isHexDigit).take 2
    let quoted (value : Nat) : List Char :=
      let c := Char.ofNat (value % 256)
      if c.isAlphanum then [c] else ['\\', c]
    if !octal.isEmpty then
      let value := octal.foldl (fun n d => 8 * n + (d.toNat - '0'.toNat)) 0
      quoted value ++ withNumbered n ((c :: rest).drop octal.length)
    else if c = 'x' && !hex.isEmpty then
      quoted (hexValue hex) ++ withNumbered n (rest.drop hex.length)
    else '\\' :: c :: withNumbered n rest
  | n + 1, c :: rest => c :: withNumbered n rest
  | _, rest => rest

/-- The expression in which repetitions that are wanted at least twice are not made any more often. -/
def withLeast : Regex → Regex
  | .follow a b => .follow (withLeast a) (withLeast b)
  | .either a b => .either (withLeast a) (withLeast b)
  | .many low high a => .many low (if 2 ≤ low then some low else high) (withLeast a)
  | .group n a => .group n (withLeast a)
  | r => r

/-- Why an expression makes no sense. -/
def searchFault (text : String) (fault : RegexFault) : String :=
  let reason := match fault with
    | .unmatchedOpen => "missing ')'"
    | .unmatchedBracket | .unknownClass | .badRange | .badCollation | .lostClass =>
      "bad class -- [], [^] or ["
    | .missingOperand | .nothingToRepeat =>
      if text.startsWith "^" then "syntax error ^* or ^+" else "missing operand"
    | .unmatchedBrace | .badBraces => "bad interval expression"
    | _ => "resource exhaustion -- regular expression too large"
  "regular expression compile failed (" ++ reason ++ ")\n" ++ text

/-- Reads an expression. -/
def readSearch (text : String) : Except String Regex :=
  match Regex.read dialect (withNumbered text.length text.toList) with
  | .ok r => .ok (withLeast r)
  | .error fault => .error (searchFault text fault)

/-- A text to search in. -/
def subject (text : String) : Subject := ⟨text.toList.toArray, false, false⟩

/-- What separates parts of a text. -/
inductive Separator where
  /-- Any blanks, which do not count at the beginning and at the end. -/
  | blanks
  /-- Nothing: each character is a part. -/
  | nothing
  | search (r : Regex)
deriving Repr

/-- The separator that a text writes. -/
def Separator.ofText (text : String) : Except String Separator :=
  match text.toList with
  | [] => .ok .nothing
  | [c] =>
    if c = ' ' then .ok .blanks else .ok (.search (Regex.Reader.literal c))
  | _ => (readSearch text).map .search

/-- The words between blanks, the characters of the word under way the last first. -/
def wordsOf : (word : List Char) → List Char → List String
  | word, [] => if word.isEmpty then [] else [String.ofList word.reverse]
  | word, c :: rest =>
    if isBlank c then
      if word.isEmpty then wordsOf [] rest else String.ofList word.reverse :: wordsOf [] rest
    else wordsOf (c :: word) rest

/-- The parts of a text that are left when some parts are taken out. -/
def partsBetween (s : Subject) (start : Nat) : List RegexMatch → List String
  | [] => [String.ofList (s.slice start s.text.size)]
  | m :: rest => String.ofList (s.slice start m.start) :: partsBetween s m.stop rest

/-- The parts between one character, those of the part under way the last first. -/
def partsAround (mark : Char) : (part : List Char) → List Char → List String
  | part, [] => [String.ofList part.reverse]
  | part, c :: rest =>
    if c = mark then String.ofList part.reverse :: partsAround mark [] rest
    else partsAround mark (c :: part) rest

/-- The parts of a text between separators. An empty text has none. -/
def Separator.split (sep : Separator) (text : String) : List String :=
  if text = "" then []
  else
    match sep with
    | blanks => wordsOf [] text.toList
    | nothing => text.toList.map String.singleton
    | search (.one ⟨false, [.range low high]⟩) =>
      if low = high then partsAround low [] text.toList
      else
        let s := subject text
        partsBetween s 0 ((Regex.all (.one ⟨false, [.range low high]⟩) s).filter fun m => m.start < m.stop)
    | search r =>
      let s := subject text
      partsBetween s 0 ((r.all s).filter fun m => m.start < m.stop)

/-- What takes the place of a match: an ampersand stands for the match, unless there is a backslash in
front of it. -/
def replacement (matched : List Char) : List Char → List Char
  | '\\' :: '\\' :: '&' :: rest => '\\' :: matched ++ replacement matched rest
  | '\\' :: '&' :: rest => '&' :: replacement matched rest
  | '&' :: rest => matched ++ replacement matched rest
  | c :: rest => c :: replacement matched rest
  | [] => []

/-- A text with some matches replaced. -/
def replaceMatches (s : Subject) (by_ : List Char) : (start : Nat) → List RegexMatch → List (List Char)
  | start, [] => [s.slice start s.text.size]
  | start, m :: rest =>
    s.slice start m.start :: replacement (s.slice m.start m.stop) by_ :: replaceMatches s by_ m.stop rest

/-- Replaces the first match in a text, or all. The number tells how many were replaced. -/
def substitute (r : Regex) (replacesAll : Bool) (by_ text : String) : Nat × String :=
  let s := subject text
  let found := if replacesAll then r.all s else (r.search? s 0).toList
  (found.length, if found.isEmpty then text
    else String.ofList (replaceMatches s by_.toList 0 found).flatten)

end Rebuild.Shell.Awk
