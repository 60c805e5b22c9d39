import Rebuild.Text.Numeral
import Rebuild.Text.Regex

/-!
# How regular expressions are written

In basic expressions groups, braces and alternatives have a backslash, in extended ones they have none.
Reading follows the levels of an expression: alternatives, sequences, and pieces that can be repeated.
-/

namespace Rebuild

/-- How expressions are written. -/
structure RegexDialect where
  isExtended : Bool
  /-- Whether it is a fault to repeat nothing, or what is repeated already. -/
  isStrict : Bool
  /-- Whether a closing parenthesis that closes nothing stands for itself. -/
  isLoose : Bool
  /-- Whether it is a fault that an alternative is empty, and a lone backslash is none. -/
  needsOperands : Bool
  /-- Whether a backslash quotes the next character between brackets. -/
  quotesInBrackets : Bool
  /-- Whether there are expressions for words, for the ends of a text, and for parts that come again. -/
  hasWords : Bool
  /-- Whether there are expressions for digits. -/
  hasDigits : Bool
  /-- The letters that stand for other characters after a backslash. -/
  controls : List (Char × Char)

/-- Why an expression makes no sense. -/
inductive RegexFault where
  | unmatchedBracket | unmatchedOpen | unmatchedClose | noSuchGroup | trailingBackslash | badRange
  | unmatchedBrace | badBraces | nothingToRepeat | missingOperand | unknownClass | badCollation | tooBig
  | lostClass
deriving DecidableEq, Repr

/-- The fault in words. -/
def RegexFault.message : RegexFault → String
  | unmatchedBracket => "Unmatched [, [^, [:, [., or [="
  | unmatchedOpen => "Unmatched ( or \\("
  | unmatchedClose => "Unmatched ) or \\)"
  | noSuchGroup => "Invalid back reference"
  | trailingBackslash => "Trailing backslash"
  | badRange => "Invalid range end"
  | unmatchedBrace => "Unmatched \\\x7b"
  | badBraces => "Invalid content of \\\x7b\\\x7d"
  | nothingToRepeat | missingOperand => "Invalid preceding regular expression"
  | unknownClass => "Invalid character class name"
  | badCollation => "Invalid collation character"
  | tooBig => "Regular expression too big"
  | lostClass => "character class syntax is [[:space:]], not [:space:]"

namespace Regex

/-! ## Brackets -/

/-- The text before a mark and a closing bracket, and what comes after it. -/
def untilMark (mark : Char) : List Char → Option (List Char × List Char)
  | c :: ']' :: rest =>
    if c = mark then some ([], rest)
    else (untilMark mark (']' :: rest)).map fun (name, rest) => (c :: name, rest)
  | c :: rest => (untilMark mark rest).map fun (name, rest) => (c :: name, rest)
  | [] => none

/-- A character between brackets, or a named class. -/
def bracketItem (d : RegexDialect) : List Char →
    Except RegexFault ((Char ⊕ String) × List Char)
  | '[' :: ':' :: rest =>
    match untilMark ':' rest with
    | some (name, rest) =>
      let name := String.ofList name
      if CharClass.names.contains name then .ok (.inr name, rest) else .error .unknownClass
    | none => .error .unmatchedBracket
  | '[' :: mark :: rest =>
    if mark = '.' || mark = '=' then
      match untilMark mark rest with
      | some ([c], rest) => .ok (.inl c, rest)
      | some _ => .error .badCollation
      | none => .error .unmatchedBracket
    else .ok (.inl '[', mark :: rest)
  | '\\' :: c :: rest =>
    match d.controls.lookup c with
    | some control => .ok (.inl control, rest)
    | none => .ok (if d.quotesInBrackets then (.inl c, rest) else (.inl '\\', c :: rest))
  | c :: rest => .ok (.inl c, rest)
  | [] => .error .unmatchedBracket

/-- Reads what stands between brackets, up to the closing one, in at most `n` steps. -/
def bracketItems (d : RegexDialect) : (n : Nat) → (isFirst : Bool) → List Char →
    Except RegexFault (List CharItem × List Char)
  | 0, _, _ | _, _, [] => .error .unmatchedBracket
  | n + 1, isFirst, c :: rest => do
    if c = ']' && !isFirst then return ([], rest)
    match ← bracketItem d (c :: rest) with
    | (.inr name, rest) =>
      let (items, rest) ← bracketItems d n false rest
      return (.named name :: items, rest)
    | (.inl low, rest) =>
      match rest with
      | '-' :: ']' :: _ =>
        let (items, rest) ← bracketItems d n false rest
        return (.range low low :: items, rest)
      | '-' :: rest =>
        match ← bracketItem d rest with
        | (.inr _, _) => throw .badRange
        | (.inl high, rest) =>
          if high < low then throw .badRange
          if rest.head? = some '-' && rest[1]? ≠ some ']' then throw .badRange
          let (items, rest) ← bracketItems d n false rest
          return (.range low high :: items, rest)
      | _ =>
        let (items, rest) ← bracketItems d n false rest
        return (.range low low :: items, rest)

/-- Reads a set of characters after the opening bracket. -/
def bracket (d : RegexDialect) (rest : List Char) : Except RegexFault (CharSet × List Char) := do
  let (excludes, body) := match rest with
    | '^' :: rest => (true, rest)
    | _ => (false, rest)
  let (items, after) ← bracketItems d (rest.length + 1) true body
  let inner := rest.take (rest.length - after.length - 1)
  if !d.quotesInBrackets && 2 < inner.length && inner.head? = some ':' && inner.getLast? = some ':' then
    throw .lostClass
  return (⟨excludes, items⟩, after)

/-! ## Braces -/

/-- The largest number of repetitions. -/
def maxRepeats : Nat := 32767

/-- Reads how often something is repeated, after the opening brace. -/
def braces? (d : RegexDialect) (rest : List Char) :
    Except RegexFault (Nat × Option Nat × List Char) := do
  let digits := rest.takeWhile Char.isDigit
  let after := rest.drop digits.length
  let low := (String.ofList digits).toNat?.getD 0
  let (high, after) := match after with
    | ',' :: after =>
      let row := after.takeWhile Char.isDigit
      ((String.ofList row).toNat?, after.drop row.length)
    | _ => (if digits.isEmpty then none else some low, after)
  let isList := (rest.drop digits.length).head? = some ','
  let close := if d.isExtended then after.head? = some '}' else after.take 2 = ['\\', '}']
  if after.isEmpty then throw .unmatchedBrace
  if !close || (digits.isEmpty && !isList) || high.any (· < low) then throw .badBraces
  if maxRepeats < max low (high.getD 0) then throw .tooBig
  return (low, high, after.drop (if d.isExtended then 1 else 2))

/-! ## Levels -/

/-- What is still to be read, how many groups were begun, which of them are complete, and the operators
that repeat nothing. -/
structure ReadState where
  rest : List Char
  begun : Nat
  complete : List Nat
  idle : List Char

abbrev Reader := StateT ReadState (Except RegexFault)

namespace Reader

/-- Whether what is still to be read begins with an operator, which has a backslash in basic
expressions. -/
def isAt (d : RegexDialect) (c : Char) : Reader Bool := do
  let rest := (← get).rest
  return if d.isExtended then rest.head? = some c else rest.take 2 = ['\\', c]

def skip (count : Nat) : Reader Unit :=
  modify fun s => { s with rest := s.rest.drop count }

/-- The length of an operator. -/
def operatorLength (d : RegexDialect) : Nat := if d.isExtended then 1 else 2

/-- Reads the repetitions after a piece, at most `n`. -/
def readRepeats (d : RegexDialect) : (n : Nat) → (isRepeated : Bool) → Regex → Reader Regex
  | 0, _, r => return r
  | n + 1, isRepeated, r => do
    let refuse : Reader Unit := do
      if isRepeated && d.isStrict then throw .nothingToRepeat
    match (← get).rest with
    | '*' :: _ =>
      refuse
      skip 1
      readRepeats d n true (.many 0 none r)
    | _ =>
      if ← isAt d '+' then
        skip (operatorLength d)
        readRepeats d n true (.many 1 none r)
      else if ← isAt d '?' then
        skip (operatorLength d)
        readRepeats d n true (.many 0 (some 1) r)
      else if ← isAt d '{' then
        match braces? d ((← get).rest.drop (operatorLength d)) with
        | .ok (low, high, rest) =>
          refuse
          modify fun s => { s with rest := rest }
          readRepeats d n true (.many low high r)
        | .error fault =>
          if d.isExtended && !d.isStrict && (fault = .unmatchedBrace || fault = .badBraces) then
            let body := (← get).rest.drop 1
            let isList := body.takeWhile fun c => c.isDigit || c = ','
            if (body.drop isList.length).head? = some '}' && isList.any Char.isDigit then throw .badBraces
            skip 1
            return .follow r (.one (.single '{'))
          throw fault
      else return r

/-- One character that stands for itself. -/
def literal (c : Char) : Regex := .one (.single c)

def wordSet : List CharItem := [.named "alnum", .range '_' '_']

/-- What a character means after a backslash. -/
def escaped (d : RegexDialect) (c : Char) : Reader Regex := do
  match d.controls.lookup c with
  | some control => return literal control
  | none =>
    if !d.hasWords then return literal c
    match c with
    | 'w' => return .one ⟨false, wordSet⟩
    | 'W' => return .one ⟨true, wordSet⟩
    | 's' => return .one ⟨false, [.named "space"]⟩
    | 'S' => return .one ⟨true, [.named "space"]⟩
    | 'd' => return if d.hasDigits then .one ⟨false, [.named "digit"]⟩ else literal c
    | 'D' => return if d.hasDigits then .one ⟨true, [.named "digit"]⟩ else literal c
    | 'b' => return .anchor .wordEdge
    | 'B' => return .anchor .noWordEdge
    | '<' => return .anchor .wordStart
    | '>' => return .anchor .wordEnd
    | '\x60' => return .anchor .textStart
    | '\'' => return .anchor .textEnd
    | _ =>
      if '1' ≤ c && c ≤ '9' then
        let number := c.toNat - '0'.toNat
        if !(← get).complete.contains number then throw .noSuchGroup
        return .again number
      return literal c

/-- Whether the expression, or the group, ends after a character. -/
def endsAfter (d : RegexDialect) : List Char → Bool
  | [] => true
  | rest => !d.isExtended && (rest.take 2 = ['\\', ')'] || rest.take 2 = ['\\', '|'])

/-- One expression after another. -/
def join : Regex → Regex → Regex
  | r, .nothing => r
  | r, rest => .follow r rest

mutual

/-- Reads alternatives, in at most `n` steps. -/
def readEither (d : RegexDialect) : (n depth : Nat) → Reader Regex
  | 0, _ => return .nothing
  | n + 1, depth => do
    let start := (← get).rest.length
    let first ← readSequence d n depth true
    let isEmpty := (← get).rest.length = start
    if ← isAt d '|' then
      if isEmpty && d.needsOperands then throw .missingOperand
      skip (operatorLength d)
      if (← get).rest.isEmpty && d.needsOperands then throw .missingOperand
      return .either first (← readEither d n depth)
    if isEmpty && 0 < depth && !(← get).rest.isEmpty && d.needsOperands then throw .missingOperand
    return first
termination_by structural n => n

/-- Reads a sequence of pieces. After an anchor it begins anew. -/
def readSequence (d : RegexDialect) : (n depth : Nat) → (isFirst : Bool) → Reader Regex
  | 0, _, _ => return .nothing
  | n + 1, depth, isFirst => do
    if (← get).rest.isEmpty || (← isAt d '|') then return .nothing
    if (← isAt d ')') && !(depth = 0 && d.isLoose) then
      if depth = 0 then throw .unmatchedClose
      return .nothing
    match (← get).rest with
    | '^' :: _ =>
      if d.isExtended || isFirst then
        skip 1
        return join (.anchor .lineStart) (← readSequence d n depth true)
      else
        let piece ← readPiece d n depth
        return join piece (← readSequence d n depth false)
    | c :: _ =>
      if isFirst && (c = '*' || (← isAt d '+') || (← isAt d '?') || (← isAt d '{')) then
        if d.isExtended || c ≠ '*' then
          if d.needsOperands then throw .missingOperand
          if d.isStrict && (d.isExtended || (← isAt d '{')) then throw .nothingToRepeat
          if d.isExtended then
            skip 1
            modify fun s => { s with idle := s.idle ++ [c] }
            return ← readSequence d n depth true
        let second := ((← get).rest[1]?).getD c
        let piece := literal (if c = '*' then c else second)
        skip (if c = '*' then 1 else 2)
        let piece ← readRepeats d n false piece
        return join piece (← readSequence d n depth false)
      else
        let piece ← readPiece d n depth
        let isAnchor := match piece with
          | .anchor _ => true
          | _ => false
        return join piece (← readSequence d n depth isAnchor)
    | [] => return .nothing
termination_by structural n => n

/-- Reads a piece and how often it is repeated. -/
def readPiece (d : RegexDialect) : (n depth : Nat) → Reader Regex
  | 0, _ => return .nothing
  | n + 1, depth => do
    let rest := (← get).rest
    if ← isAt d '(' then
      skip (operatorLength d)
      let number := (← get).begun + 1
      modify fun s => { s with begun := number }
      let body ← readEither d n (depth + 1)
      if !(← isAt d ')') then throw .unmatchedOpen
      skip (operatorLength d)
      modify fun s => { s with complete := number :: s.complete }
      readRepeats d n false (.group number body)
    else
      match rest with
      | '[' :: rest =>
        let (set, rest) ← bracket d rest
        modify fun s => { s with rest := rest }
        readRepeats d n false (.one set)
      | '.' :: _ =>
        skip 1
        readRepeats d n false (.one .all)
      | '$' :: rest =>
        skip 1
        if d.isExtended || endsAfter d rest then return .anchor .lineEnd
        readRepeats d n false (literal '$')
      | ['\\'] =>
        if !d.needsOperands then throw .trailingBackslash
        skip 1
        return literal '\\'
      | '\\' :: c :: _ =>
        skip 2
        match ← escaped d c with
        | .anchor found => return .anchor found
        | piece => readRepeats d n false piece
      | c :: _ =>
        skip 1
        readRepeats d n false (literal c)
      | [] => return .nothing
termination_by structural n => n

end

end Reader

/-- Reads an expression, and tells which operators in it repeat nothing. -/
def readFully (d : RegexDialect) (text : List Char) : Except RegexFault (Regex × List Char) := do
  let (r, s) ← (Reader.readEither d (4 * text.length + 4) 0).run ⟨text, 0, [], []⟩
  if s.rest.isEmpty then return (r, s.idle) else throw .unmatchedClose

/-- Reads an expression. -/
def read (d : RegexDialect) (text : List Char) : Except RegexFault Regex :=
  (readFully d text).map (·.1)

end Regex

namespace RegexDialect

/-- Basic expressions as tools that search for lines read them. -/
def basic : RegexDialect := ⟨false, false, false, false, false, true, false, []⟩

/-- Extended expressions as tools that search for lines read them. -/
def extended : RegexDialect := ⟨true, false, true, false, false, true, false, []⟩

end RegexDialect

/-- Reads an expression in which all characters stand for themselves. -/
def Regex.ofText (text : List Char) : Regex :=
  text.foldr (fun c r => Regex.Reader.join (Regex.Reader.literal c) r) .nothing

end Rebuild
