/-!
# Differences of two lists

A difference tells which items of two lists are left out so that the others are the same, as few as
possible. It is found from both ends at once: the paths that leave out few items are followed until one
from the beginning meets one from the end, and then what is before and after that point is compared in
the same way.

Runs of items that are left out are moved as far to the end as the items around them allow, and changes
that stand across from each other make up a hunk.
-/

namespace Rebuild.Difference

/-- Two lists that are compared, by number of items and by whether two items are the same. -/
structure Pair where
  first : Nat
  second : Nat
  same : Nat → Nat → Bool

/-- Which items are left out, in both lists. -/
structure Changes where
  first : Array Bool
  second : Array Bool
deriving Repr

namespace Changes

/-- Leaves out a row of items of the first list. -/
def dropFirst (c : Changes) (low high : Nat) : Changes :=
  { c with first := (List.range (high - low)).foldl (fun a i => a.setIfInBounds (low + i) true) c.first }

/-- Leaves out a row of items of the second list. -/
def dropSecond (c : Changes) (low high : Nat) : Changes :=
  { c with second :=
      (List.range (high - low)).foldl (fun a i => a.setIfInBounds (low + i) true) c.second }

end Changes

/-! ## Meeting in the middle -/

/-- How far each diagonal was followed. A diagonal is the difference of two positions. -/
structure Reach where
  /-- The diagonal of the first cell. -/
  base : Int
  cells : Array Int

namespace Reach

def get (r : Reach) (diagonal : Int) : Int := r.cells.getD (diagonal - r.base).toNat 0

def set (r : Reach) (diagonal value : Int) : Reach :=
  { r with cells := r.cells.setIfInBounds (diagonal - r.base).toNat value }

end Reach

/-- A part of both lists: where it begins and ends. -/
structure Window where
  left : Nat
  right : Nat
  top : Nat
  bottom : Nat
deriving Repr

/-- Moves forward over items that are the same, at most `n`. -/
def slideOn (p : Pair) (w : Window) : (n : Nat) → (x y : Int) → Int
  | 0, x, _ => x
  | n + 1, x, y =>
    if x < w.right && y < w.bottom && p.same x.toNat y.toNat then slideOn p w n (x + 1) (y + 1) else x

/-- Moves back over items that are the same, at most `n`. -/
def slideBack (p : Pair) (w : Window) : (n : Nat) → (x y : Int) → Int
  | 0, x, _ => x
  | n + 1, x, y =>
    if w.left < x && w.top < y && p.same (x - 1).toNat (y - 1).toNat then
      slideBack p w n (x - 1) (y - 1)
    else x

/-- Follows the diagonals from one down to another, every second one, a step further from the beginning,
until one meets what was reached from the end. -/
def advance (p : Pair) (w : Window) (isOdd : Bool) (other : Reach) (otherLow otherHigh low : Int) :
    (n : Nat) → (d : Int) → Reach → Reach × Option (Nat × Nat)
  | 0, _, reach => (reach, none)
  | n + 1, d, reach =>
    if d < low then (reach, none)
    else
      let below := reach.get (d - 1)
      let above := reach.get (d + 1)
      let start := if below < above then above else below + 1
      let x := slideOn p w (w.right + w.bottom) start (start - d)
      let reach := reach.set d x
      if isOdd && otherLow ≤ d && d ≤ otherHigh && other.get d ≤ x then
        (reach, some (x.toNat, (x - d).toNat))
      else advance p w isOdd other otherLow otherHigh low n (d - 2) reach

/-- Follows the diagonals a step further from the end, until one meets what was reached from the
beginning. -/
def retreat (p : Pair) (w : Window) (isOdd : Bool) (other : Reach) (otherLow otherHigh low : Int) :
    (n : Nat) → (d : Int) → Reach → Reach × Option (Nat × Nat)
  | 0, _, reach => (reach, none)
  | n + 1, d, reach =>
    if d < low then (reach, none)
    else
      let below := reach.get (d - 1)
      let above := reach.get (d + 1)
      let start := if below < above then below else above - 1
      let x := slideBack p w (w.right + w.bottom) start (start - d)
      let reach := reach.set d x
      if !isOdd && otherLow ≤ d && d ≤ otherHigh && x ≤ other.get d then
        (reach, some (x.toNat, (x - d).toNat))
      else retreat p w isOdd other otherLow otherHigh low n (d - 2) reach

/-- What was followed from one end: how far, and the outermost diagonals. -/
structure Front where
  reach : Reach
  low : Int
  high : Int

/-- A front with one more diagonal on both sides, or one less where the window ends. -/
def Front.widen (f : Front) (least most outside : Int) : Front :=
  let (low, reach) := if least < f.low then (f.low - 1, f.reach.set (f.low - 2) outside)
    else (f.low + 1, f.reach)
  let (high, reach) := if f.high < most then (f.high + 1, reach.set (f.high + 2) outside)
    else (f.high - 1, reach)
  ⟨reach, low, high⟩

/-- A point in the middle of a shortest way through a window, found in at most `n` rounds. -/
def meeting (p : Pair) (w : Window) : (n : Nat) → (forth back : Front) → Nat × Nat
  | 0, _, _ => (w.left, w.top)
  | n + 1, forth, back =>
    let least : Int := (w.left : Int) - w.bottom
    let most : Int := (w.right : Int) - w.top
    let isOdd := ((w.left : Int) - w.top - (w.right - w.bottom)) % 2 ≠ 0
    let rounds := w.right + w.bottom + 2
    let forth := forth.widen least most (-1)
    let (reach, found) :=
      advance p w isOdd back.reach back.low back.high forth.low rounds forth.high forth.reach
    let forth := { forth with reach := reach }
    match found with
    | some point => point
    | none =>
      let back := back.widen least most (w.right + w.bottom + 10)
      let (reach, found) :=
        retreat p w isOdd forth.reach forth.low forth.high back.low rounds back.high back.reach
      match found with
      | some point => point
      | none => meeting p w n forth { back with reach := reach }

/-- The middle of a window. -/
def middle (p : Pair) (w : Window) : Nat × Nat :=
  let base : Int := (w.left : Int) - w.bottom - 2
  let size := (w.right - w.left) + (w.bottom - w.top) + 5
  let cells : Array Int := Array.replicate size 0
  let start : Int := (w.left : Int) - w.top
  let stop : Int := (w.right : Int) - w.bottom
  meeting p w (w.right + w.bottom + 2)
    ⟨(⟨base, cells⟩ : Reach).set start w.left, start, start⟩
    ⟨(⟨base, cells⟩ : Reach).set stop w.right, stop, stop⟩

/-- A window without what is the same at its beginning and end. -/
def Window.trim (p : Pair) (w : Window) : Window :=
  let front := (slideOn p w (w.right + w.bottom) w.left w.top).toNat - w.left
  let w := { w with left := w.left + front, top := w.top + front }
  let back := w.right - (slideBack p w (w.right + w.bottom) w.right w.bottom).toNat
  { w with right := w.right - back, bottom := w.bottom - back }

/-- Leaves out the items of a window that are not the same, at most `n` windows deep. -/
def compare (p : Pair) : (n : Nat) → Window → Changes → Changes
  | 0, _, c => c
  | n + 1, w, c =>
    let w := w.trim p
    if w.left = w.right then c.dropSecond w.top w.bottom
    else if w.top = w.bottom then c.dropFirst w.left w.right
    else
      let (x, y) := middle p w
      let c := compare p n { w with right := x, bottom := y } c
      compare p n { w with left := x, top := y } c

/-! ## Items without a counterpart -/

/-- The changes between two lists of keys that are the same exactly for items that are. Items that the
other list does not have are left out first. -/
def changes (a b : Array Nat) : Changes :=
  let highest := (a ++ b).foldl max 0
  let present (keys : Array Nat) : Array Bool :=
    keys.foldl (fun p key => p.setIfInBounds key true) (Array.replicate (highest + 1) false)
  let inFirst := present a
  let inSecond := present b
  let keptFirst := ((List.range a.size).filter fun i => inSecond.getD (a.getD i 0) false).toArray
  let keptSecond := ((List.range b.size).filter fun j => inFirst.getD (b.getD j 0) false).toArray
  let p : Pair := ⟨keptFirst.size, keptSecond.size, fun i j =>
    a[keptFirst.getD i 0]? = b[keptSecond.getD j 0]?⟩
  let found := compare p (keptFirst.size + keptSecond.size + 2) ⟨0, keptFirst.size, 0, keptSecond.size⟩
    ⟨Array.replicate keptFirst.size false, Array.replicate keptSecond.size false⟩
  let mark (size : Nat) (kept : Array Nat) (found : Array Bool) : Array Bool :=
    (kept.zip found).foldl (fun c (i, isOut) => c.setIfInBounds i isOut) (Array.replicate size true)
  ⟨mark a.size keptFirst found.first, mark b.size keptSecond found.second⟩

/-! ## Moving changes -/

/-- Whether an item is left out. -/
def isOut (changed : Array Bool) (i : Nat) : Bool := changed.getD i false

/-- The beginning of a run of items that are left out, going back from its end. -/
def runStart (changed : Array Bool) : (i : Nat) → Nat
  | 0 => 0
  | i + 1 => if isOut changed i then runStart changed i else i + 1

/-- The end of a run of items that are left out, in at most `n` steps. -/
def runEnd (changed : Array Bool) : (n i : Nat) → Nat
  | 0, i => i
  | n + 1, i => if isOut changed i then runEnd changed n (i + 1) else i

/-- The list across: its changes, and the positions of the items that are kept. -/
structure Across where
  changed : Array Bool
  kept : Array Nat

/-- Whether items are left out across from a position with a number of kept items before it. -/
def Across.isChanged (a : Across) (count : Nat) : Bool :=
  let position := a.kept.getD count a.changed.size
  0 < position && isOut a.changed (position - 1)

/-- A run of items that are left out while it is moved: how many items before it are kept, and its end
where it last stood across from a change. -/
structure Moving where
  changed : Array Bool
  start : Nat
  stop : Nat
  count : Nat
  matching : Option Nat

/-- Moves a run back by an item. -/
def Moving.back (m : Moving) : Moving :=
  { m with
    changed := (m.changed.setIfInBounds (m.start - 1) true).setIfInBounds (m.stop - 1) false
    start := m.start - 1
    stop := m.stop - 1
    count := m.count - 1 }

/-- Moves a run back as far as possible, in at most `n` steps. -/
def moveBack (same : Nat → Nat → Bool) : (n : Nat) → Moving → Moving
  | 0, m => m
  | n + 1, m =>
    if 0 < m.start && same (m.start - 1) (m.stop - 1) then
      let m := m.back
      moveBack same n { m with start := runStart m.changed m.start }
    else m

/-- Moves a run on as far as possible, in at most `n` steps. -/
def moveOn (same : Nat → Nat → Bool) (across : Across) : (n : Nat) → Moving → Moving
  | 0, m => m
  | n + 1, m =>
    if m.stop < m.changed.size && same m.start m.stop then
      let changed := (m.changed.setIfInBounds m.start false).setIfInBounds m.stop true
      let stop := runEnd changed changed.size (m.stop + 1)
      let count := m.count + 1
      moveOn same across n
        ⟨changed, m.start + 1, stop, count, if across.isChanged count then some stop else m.matching⟩
    else m

/-- Moves a run back and on until it does not grow any more, in at most `n` rounds. -/
def moveWithin (same : Nat → Nat → Bool) (across : Across) : (n : Nat) → Moving → Moving
  | 0, m => m
  | n + 1, m =>
    let size := m.changed.size + 1
    let back := moveBack same size m
    let back := { back with matching := if across.isChanged back.count then some back.stop else none }
    let on := moveOn same across size back
    if on.stop - on.start = m.stop - m.start then on else moveWithin same across n on

/-- Moves a run back to where it stood across from a change, in at most `n` steps. -/
def moveToMatch : (n : Nat) → Moving → Moving
  | 0, m => m
  | n + 1, m => if m.matching.any (· < m.stop) then moveToMatch n m.back else m

/-- Moves the runs from a position on, in at most `n` steps. -/
def moveRuns (same : Nat → Nat → Bool) (across : Across) : (n i count : Nat) → Array Bool →
    Array Bool
  | 0, _, _, changed => changed
  | n + 1, i, count, changed =>
    if changed.size ≤ i then changed
    else if isOut changed i then
      let size := changed.size + 1
      let m := moveWithin same across size ⟨changed, i, runEnd changed size i, count, none⟩
      let m := moveToMatch size m
      moveRuns same across n m.stop m.count m.changed
    else moveRuns same across n (i + 1) (count + 1) changed

/-- Moves the runs of one list. -/
def moved (keys : Array Nat) (changed other : Array Bool) : Array Bool :=
  let kept := ((List.range other.size).filter fun j => !isOut other j).toArray
  moveRuns (fun i j => keys[i]? = keys[j]?) ⟨other, kept⟩ (2 * changed.size + 2) 0 0 changed

/-! ## Hunks -/

/-- Changes that stand across from each other: where they begin and end in both lists. -/
structure Hunk where
  left : Nat
  right : Nat
  top : Nat
  bottom : Nat
deriving DecidableEq, Repr

/-- The hunks of changes from two positions on, in at most `n` steps. -/
def hunksFrom (c : Changes) : (n i j : Nat) → List Hunk
  | 0, _, _ => []
  | n + 1, i, j =>
    if isOut c.first i || isOut c.second j then
      let right := runEnd c.first c.first.size i
      let bottom := runEnd c.second c.second.size j
      ⟨i, right, j, bottom⟩ :: hunksFrom c n right bottom
    else if c.first.size ≤ i && c.second.size ≤ j then []
    else hunksFrom c n (i + 1) (j + 1)

/-- A hunk of what follows a number of items in both lists. -/
def Hunk.after (h : Hunk) (lead : Nat) : Hunk :=
  ⟨h.left + lead, h.right + lead, h.top + lead, h.bottom + lead⟩

/-- The hunks in which two lists of keys differ, apart from a number of items at the beginning and at
the end of both that are not looked at. -/
def hunks (lead tail : Nat) (a b : Array Nat) : List Hunk :=
  let a := a.extract lead (a.size - tail)
  let b := b.extract lead (b.size - tail)
  let c := changes a b
  let first := moved a c.first c.second
  let c : Changes := ⟨first, moved b c.second first⟩
  (hunksFrom c (a.size + b.size + 2) 0 0).map (·.after lead)

end Rebuild.Difference
