/-!
# Tables

A total map from indices to values: every index that was never set has the default value. Only
`get_set` is needed to reason about one.
-/

namespace Rebuild

/-- Values at indices, with a default everywhere else. -/
structure Table (α : Type) where
  cells : Array α
deriving Repr

namespace Table

variable {α : Type} [Inhabited α]

instance : Inhabited (Table α) := ⟨⟨#[]⟩⟩

/-- The value at an index. -/
def get (t : Table α) (i : Nat) : α :=
  t.cells.getD i default

/-- The table with another value at an index. -/
def set (t : Table α) (i : Nat) (value : α) : Table α :=
  if i < t.cells.size then ⟨t.cells.setIfInBounds i value⟩
  else ⟨(t.cells ++ Array.replicate (i - t.cells.size) default).push value⟩

/-- The table with the value at an index changed by a function. -/
def modify (t : Table α) (i : Nat) (f : α → α) : Table α :=
  t.set i (f (t.get i))

@[simp] theorem get_default (i : Nat) : (default : Table α).get i = default := by
  simp [get, default]

theorem get_set (t : Table α) (i j : Nat) (value : α) :
    (t.set i value).get j = if i = j then value else t.get j := by
  unfold set
  split
  · by_cases h : i = j
    · subst h; simp_all [get]
    · by_cases hj : j < t.cells.size <;> simp [get, h, hj]
  · simp only [get, Array.getD_eq_getD_getElem?, Array.getElem?_push, Array.getElem?_append,
      Array.getElem?_replicate, Array.size_append, Array.size_replicate]
    grind

theorem get_modify (t : Table α) (i j : Nat) (f : α → α) :
    (t.modify i f).get j = if i = j then f (t.get i) else t.get j := by
  simp [modify, get_set]

end Table

end Rebuild
