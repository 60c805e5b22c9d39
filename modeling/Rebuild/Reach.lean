import Rebuild.Graph

/-!
# Edges that are reached

The edges that files depend on, through inputs of any kind. They come in an order in which each edge
stands behind those that make its inputs, unless edges depend on one another in a circle.
-/

namespace Rebuild.Reach

/-- The edges met so far, and those left behind again with all that they depend on. -/
structure Walk where
  met : List EdgeId
  order : List EdgeId
deriving DecidableEq, Repr

/-- Walks to the edge that makes a file, unless it was met before. Each step inwards meets one more
edge, so `depth` need not be more than the number of edges. -/
def visit (g : Graph) : (depth : Nat) → Walk → NodeId → Walk
  | depth, w, node =>
    match (g.node node).producer with
    | none => w
    | some id =>
      if w.met.contains id then w
      else match depth with
        | 0 => w
        | depth + 1 =>
          let w := (g.edge id).ins.foldl (visit g depth) { w with met := id :: w.met }
          { w with order := w.order ++ [id] }

/-- The edges that files depend on. -/
def edges (g : Graph) (targets : List NodeId) : List EdgeId :=
  (targets.foldl (visit g g.edges.size) ⟨[], []⟩).order

end Rebuild.Reach
