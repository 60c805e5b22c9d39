/-!
# Classes of characters

Characters that are listed, one by one, in ranges, or by the name of a class. The classes have the
characters of seven bits that one expects, and no others.
-/

namespace Rebuild

namespace CharClass

/-- The names of the classes. -/
def names : List String :=
  ["alnum", "alpha", "blank", "cntrl", "digit", "graph", "lower", "print", "punct", "space", "upper",
    "xdigit"]

/-- Whether a character belongs to a named class. -/
def has (name : String) (c : Char) : Bool :=
  match name with
  | "alpha" => c.isAlpha
  | "digit" => c.isDigit
  | "alnum" => c.isAlphanum
  | "upper" => c.isUpper
  | "lower" => c.isLower
  | "space" => c = ' ' || ('\t' ≤ c && c ≤ '\r')
  | "blank" => c = ' ' || c = '\t'
  | "punct" => '!' ≤ c && c ≤ '~' && !c.isAlphanum
  | "print" => ' ' ≤ c && c ≤ '~'
  | "graph" => '!' ≤ c && c ≤ '~'
  | "cntrl" => c < ' ' || c = '\x7f'
  | "xdigit" => c.isDigit || ('a' ≤ c && c ≤ 'f') || ('A' ≤ c && c ≤ 'F')
  | _ => false

end CharClass

/-- What a list of characters lists: a range of characters, or a named class. -/
inductive CharItem where
  | range (low high : Char)
  | named (name : String)
deriving DecidableEq, Repr

/-- Whether a character is listed. -/
def CharItem.has (c : Char) : CharItem → Bool
  | range low high => low ≤ c && c ≤ high
  | named name => CharClass.has name c

/-- The characters that are listed, or all others. -/
structure CharSet where
  excludes : Bool
  items : List CharItem
deriving DecidableEq, Repr

namespace CharSet

def has (s : CharSet) (c : Char) : Bool :=
  s.items.any (·.has c) != s.excludes

/-- The set of one character. -/
def single (c : Char) : CharSet := ⟨false, [.range c c]⟩

/-- The set of all characters. -/
def all : CharSet := ⟨true, []⟩

/-- Whether a character belongs to a set, in upper case or in lower case. -/
def hasFolded (s : CharSet) (c : Char) : Bool :=
  let listed (c : Char) : Bool := s.items.any (·.has c)
  (listed c || listed c.toLower || listed c.toUpper) != s.excludes

@[simp] theorem has_single (c d : Char) : (single c).has d = decide (d = c) := by
  have h : (c ≤ d ∧ d ≤ c) ↔ d = c :=
    ⟨fun ⟨h₁, h₂⟩ => Char.le_antisymm h₂ h₁, fun h => h ▸ ⟨Char.le_refl d, Char.le_refl d⟩⟩
  simp [single, has, CharItem.has, ← h]

@[simp] theorem has_all (c : Char) : all.has c = true := rfl

end CharSet

end Rebuild
