import Rebuild.Bindings

/-!
# Templates

A template is text with references to variables that are looked up only when it is evaluated. Its
normal form has no empty literal and no two literals side by side; every operation here keeps it.

Evaluation replaces each reference by the value of the template bound to it. While a variable is
being expanded it is unbound, so a reference to itself, direct or through others, expands to nothing
like any unbound name. The environment gets smaller with each nested expansion, and so evaluation
ends whatever the bindings are.
-/

namespace Rebuild

/-- A piece of a template. -/
inductive Fragment where
  | literal (text : String)
  | var (name : String)
deriving DecidableEq, Repr

/-- Text with references to variables. -/
structure Template where
  fragments : List Fragment
deriving DecidableEq, Repr

/-- The variables that can be expanded, the first entry for a name being the one that counts. -/
abbrev Environment := List (String × Template)

namespace Environment

/-- The template bound to a name. -/
def find? (env : Environment) (name : String) : Option Template :=
  Bindings.findIn name env

/-- The environment in which a name is unbound. -/
def without (env : Environment) (name : String) : Environment :=
  env.filter (·.1 ≠ name)

theorem length_without_lt {env : Environment} {name : String} {value : Template}
    (h : env.find? name = some value) : (env.without name).length < env.length := by
  have mem : ∃ entry ∈ env, entry.1 = name := by
    unfold find? at h
    induction env with
    | nil => simp [Bindings.findIn] at h
    | cons entry rest ih =>
      by_cases he : entry.1 = name
      · exact ⟨entry, by simp, he⟩
      · simp only [Bindings.findIn, he, if_false] at h
        obtain ⟨found, hf, hn⟩ := ih h
        exact ⟨found, by simp [hf], hn⟩
  obtain ⟨entry, hm, he⟩ := mem
  exact List.length_filter_lt_length_iff_exists.2 ⟨entry, hm, by simp [he]⟩

end Environment

namespace Template

/-- The template without fragments. -/
def empty : Template := ⟨[]⟩

instance : Inhabited Template := ⟨empty⟩

def isEmpty (t : Template) : Bool :=
  t.fragments.isEmpty

/-- Adds literal text at the end of a list of fragments, joining it to a literal that ends it. -/
def appendLiteral (text : String) : List Fragment → List Fragment
  | [] => [.literal text]
  | [.literal last] => [.literal (last ++ text)]
  | fragment :: rest => fragment :: appendLiteral text rest

/-- The template with literal text at its end. -/
def pushLiteral (t : Template) (text : String) : Template :=
  if text = "" then t else ⟨appendLiteral text t.fragments⟩

/-- The template with a reference at its end. -/
def pushVar (t : Template) (name : String) : Template :=
  ⟨t.fragments ++ [.var name]⟩

/-- The template with a fragment at its end. -/
def push (t : Template) : Fragment → Template
  | .literal text => t.pushLiteral text
  | .var name => t.pushVar name

/-- The template made of the fragments, in normal form. -/
def ofFragments (fragments : List Fragment) : Template :=
  fragments.foldl push empty

/-- The template that is just a text. -/
def literal (text : String) : Template :=
  empty.pushLiteral text

/-- Whether a variable is referred to directly. -/
def references (t : Template) (name : String) : Bool :=
  t.fragments.contains (.var name)

/-- The template with each reference to a variable replaced by another template, or taken out when
there is none. -/
def inlineVar (t : Template) (name : String) (replacement : Option Template) : Template :=
  ofFragments <| t.fragments.flatMap fun fragment =>
    if fragment = .var name then (replacement.getD empty).fragments else [fragment]

/-- The value of a list of fragments. -/
def evalFragments (env : Environment) (fragments : List Fragment) : String :=
  match fragments with
  | [] => ""
  | .literal text :: rest => text ++ evalFragments env rest
  | .var name :: rest =>
    (match _found : env.find? name with
      | none => ""
      | some value => evalFragments (env.without name) value.fragments) ++ evalFragments env rest
termination_by (env.length, fragments.length)
decreasing_by
  · exact Prod.Lex.right _ (by simp)
  · exact Prod.Lex.left _ _ (Environment.length_without_lt _found)
  · exact Prod.Lex.right _ (by simp)

/-- The value of a template. -/
def eval (t : Template) (env : Environment) : String :=
  evalFragments env t.fragments

/-- A literal as it is written, the dollar sign doubled. -/
def escapeDollars (text : String) : String :=
  String.ofList (text.toList.flatMap fun c => if c = '$' then ['$', '$'] else [c])

/-- A template as it is written in a manifest. -/
def display (t : Template) : String :=
  String.join <| t.fragments.map fun
    | .literal text => escapeDollars text
    | .var name => "$\x7b" ++ name ++ "\x7d"

end Template

end Rebuild
