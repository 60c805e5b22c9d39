import Rebuild.Template

/-!
# Scopes

Variables and rules are declared in scopes. Each file read by `subninja` and each build statement
has a scope of its own inside the one around it; a name is looked up from the inside to the outside.
Scopes are kept for good, since templates are evaluated long after their file was read.

A binding that refers to its own name means the binding seen before it, so that reference is
replaced on the spot; all other references stay references.
-/

namespace Rebuild

/-- The number of a scope, in order of creation. The root scope is number 0. -/
abbrev ScopeId := Nat

/-- The number of a rule, in order of creation. -/
abbrev RuleId := Nat

/-- What is declared in one scope. -/
structure Scope where
  parent : Option ScopeId
  vars : Bindings Template
  rules : Bindings RuleId
deriving Repr

namespace Scope

/-- A scope without declarations inside another one. -/
def inside (parent : Option ScopeId) : Scope := ⟨parent, ∅, ∅⟩

instance : Inhabited Scope := ⟨inside none⟩

end Scope

/-- All scopes. -/
structure Scopes where
  all : Array Scope
deriving Repr

namespace Scopes

/-- Just the root scope. -/
def initial : Scopes := ⟨#[Scope.inside none]⟩

instance : Inhabited Scopes := ⟨initial⟩

def root : ScopeId := 0

def get (s : Scopes) (scope : ScopeId) : Scope :=
  s.all.getD scope default

/-- A new scope inside `parent`, with its number. -/
def addChild (s : Scopes) (parent : ScopeId) : ScopeId × Scopes :=
  (s.all.size, ⟨s.all.push (Scope.inside (some parent))⟩)

/-- A scope and those around it, the innermost first. A scope is always created after the one around
it. -/
def ancestors (s : Scopes) (scope : ScopeId) : List Scope :=
  s.get scope ::
    match (s.get scope).parent with
    | some parent => if parent < scope then s.ancestors parent else []
    | none => []
termination_by scope

/-- The variables that can be seen in a scope, those of inner scopes first. -/
def environment (s : Scopes) (scope : ScopeId) : Environment :=
  (s.ancestors scope).flatMap (·.vars.toList)

/-- The variables that can be seen around a scope but are not declared in it. -/
def environmentAround (s : Scopes) (scope : ScopeId) : Environment :=
  (s.ancestors scope).tail.flatMap (·.vars.toList)

/-- The variable that a name stands for in a scope. -/
def findVar? (s : Scopes) (scope : ScopeId) (name : String) : Option Template :=
  (s.ancestors scope).findSome? (·.vars.find? name)

/-- The rule that a name stands for in a scope. -/
def findRule? (s : Scopes) (scope : ScopeId) (name : String) : Option RuleId :=
  (s.ancestors scope).findSome? (·.rules.find? name)

/-- Binds a variable in a scope. -/
def bind (s : Scopes) (scope : ScopeId) (name : String) (value : Template) : Scopes :=
  let value :=
    if value.references name then value.inlineVar name (s.findVar? scope name) else value
  ⟨s.all.modify scope fun sc => { sc with vars := sc.vars.bind name value }⟩

/-- Declares a rule in a scope, unless the scope itself has one of that name. -/
def addRule? (s : Scopes) (scope : ScopeId) (name : String) (rule : RuleId) : Option Scopes :=
  if (s.get scope).rules.contains name then none
  else some ⟨s.all.modify scope fun sc => { sc with rules := sc.rules.bind name rule }⟩

/-- The value of a template in a scope. -/
def eval (s : Scopes) (scope : ScopeId) (t : Template) : String :=
  t.eval (s.environment scope)

end Scopes

end Rebuild
