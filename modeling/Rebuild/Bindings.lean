/-!
# Ordered bindings

A finite map from names to values that remembers the order in which names were first bound.
Binding a name again replaces its value and keeps its place. `find?_bind` says what binding does to
look-ups, and is the only fact about the representation that other modules need.
-/

namespace Rebuild

/-- Names with their values, in order of first binding. -/
structure Bindings (α : Type) where
  toList : List (String × α)
deriving DecidableEq, Repr

namespace Bindings

variable {α : Type}

def empty : Bindings α := ⟨[]⟩

instance : EmptyCollection (Bindings α) := ⟨empty⟩

instance : Inhabited (Bindings α) := ⟨empty⟩

/-- The value of the first entry for a name. -/
def findIn (name : String) : List (String × α) → Option α
  | [] => none
  | entry :: rest => if entry.1 = name then some entry.2 else findIn name rest

/-- The value bound to a name. -/
def find? (b : Bindings α) (name : String) : Option α :=
  findIn name b.toList

def contains (b : Bindings α) (name : String) : Bool :=
  (b.find? name).isSome

/-- The bound names, in order of first binding. -/
def names (b : Bindings α) : List String :=
  b.toList.map (·.1)

/-- The list with `name` bound to `value`, in its old place if it has one and at the end otherwise.
-/
def bindIn (name : String) (value : α) : List (String × α) → List (String × α)
  | [] => [(name, value)]
  | entry :: rest =>
    if entry.1 = name then (name, value) :: rest else entry :: bindIn name value rest

/-- Binds a name. -/
def bind (b : Bindings α) (name : String) (value : α) : Bindings α :=
  ⟨bindIn name value b.toList⟩

@[simp] theorem find?_empty (name : String) : (∅ : Bindings α).find? name = none := rfl

theorem find?_bind (b : Bindings α) (name other : String) (value : α) :
    (b.bind name value).find? other = if other = name then some value else b.find? other := by
  obtain ⟨entries⟩ := b
  simp only [find?, bind]
  induction entries with
  | nil => simp [bindIn, findIn, eq_comm]
  | cons entry rest ih =>
    simp only [bindIn, findIn]
    split <;> grind [findIn]

end Bindings

end Rebuild
