import Rebuild.Shell.Awk.Value
import Std.Data.HashMap

/-!
# Arrays of record programs

An array has values under texts. A loop over an array goes through its texts in the order in which they
lie in buckets: each text lies in front of those that came into its bucket before it, and what was looked
for last lies in front, too. Whole numbers have buckets of their own, from which they come into those of
the texts as soon as texts are looked for.
-/

namespace Rebuild.Shell.Awk

/-- Texts and numbers in buckets, and their values. `isRow` holds for an array that was filled with a row
of values and not used in another way since then. -/
structure Elements where
  values : Std.HashMap String Value
  isRow : Bool
  hasTexts : Bool
  /-- The buckets of texts. -/
  byText : Array (List String)
  /-- The buckets of whole numbers. -/
  byNumber : Array (List Int)

namespace Elements

/-- How many buckets a small array has. -/
def firstBuckets : Nat := 64

/-- How many values an array has for each bucket at most. -/
def bucketSize : Nat := 12

def empty : Elements := ⟨∅, false, false, #[], #[]⟩

instance : Inhabited Elements := ⟨empty⟩

def size (e : Elements) : Nat := e.values.size

/-- A number of 32 bits made from a text. -/
def hash (key : String) : Nat :=
  key.toList.foldl (fun h c => ((h ^^^ (c.toNat % 256)) * 16777619) % Nat.pow 2 32) 2166136261

/-- The number of the bucket for a text among a number of them. -/
def textBucket (buckets : Nat) (key : String) : Nat := hash key % buckets

def numberBucket (buckets : Nat) (n : Int) : Nat := (n % buckets).toNat

/-- Gives an array its buckets. -/
def withBuckets (e : Elements) (count : Nat) : Elements :=
  if e.byText.isEmpty then
    { e with byText := Array.replicate count [], byNumber := Array.replicate count [] }
  else e

/-- The number of buckets for a row of values, twice as many at most `n` times. -/
def bucketsFor (size : Nat) : (n count : Nat) → Nat
  | 0, count => count
  | n + 1, count => if bucketSize * count < size then bucketsFor size n (2 * count) else count

/-- The array that has a row of values under the numbers from 1 on. -/
def ofRow (row : List Value) : Elements :=
  { empty with
    values := row.zipIdx.foldl (fun m (v, i) => m.insert (toString (i + 1)) v) ∅
    isRow := !row.isEmpty }

/-- Puts the numbers of a row into buckets. -/
def spread (e : Elements) : Elements :=
  if e.isRow then
    let count := bucketsFor e.size 40 firstBuckets
    let e := { e with isRow := false }.withBuckets count
    let numbers : List Int := (List.range e.size).map fun (i : Nat) => (i : Int) + 1
    { e with byNumber := numbers.foldl (fun b n => b.modify (numberBucket count n) (n :: ·)) e.byNumber }
  else e.withBuckets firstBuckets

/-- Puts numbers into the buckets of texts, too. -/
def withTexts (e : Elements) : Elements :=
  if e.hasTexts then e
  else
    let e := e.spread
    { e with
      hasTexts := true
      byText := e.byNumber.foldl (fun b numbers => numbers.foldl (fun b n =>
        let key := toString n
        b.modify (textBucket b.size key) (key :: ·)) b) e.byText }

/-- Twice as many buckets, in which what was in one bucket keeps its order. -/
def doubled {α : Type} (bucket : Nat → α → Nat) (b : Array (List α)) : Array (List α) :=
  let part (offset i : Nat) (items : List α) : List α :=
    items.filter fun item => bucket (2 * b.size) item = offset + i
  b.mapIdx (part 0) ++ b.mapIdx (part b.size)

/-- The array with enough buckets for its values. -/
def grown (e : Elements) : Elements :=
  if bucketSize * e.byText.size < e.size then
    { e with byText := doubled textBucket e.byText, byNumber := doubled numberBucket e.byNumber }
  else e

/-- Puts something into the front of a list of which it is a part, or which lacks it. -/
def toFront {α : Type} [BEq α] (item : α) (items : List α) : List α :=
  if items.head? == some item then items else item :: items.erase item

/-- The array after a text was looked for. If it is missing it is added where that is asked for. -/
def touchText (e : Elements) (key : String) (adds : Bool) : Elements :=
  let e := e.withTexts
  if e.values.contains key then
    { e with byText := e.byText.modify (textBucket e.byText.size key) (toFront key) }
  else if adds then
    let e := { e with values := e.values.insert key .unset }.grown
    { e with byText := e.byText.modify (textBucket e.byText.size key) (key :: ·) }
  else e

/-- The array after a whole number was looked for. -/
def touchNumber (e : Elements) (n : Int) (adds : Bool) : Elements :=
  let key := toString n
  let isThere := e.values.contains key
  if e.isRow && isThere then e
  else if !isThere && !adds then e.spread
  else
    let e := e.spread
    let bucket := numberBucket e.byNumber.size n
    if (e.byNumber.getD bucket []).contains n then
      { e with byNumber := e.byNumber.modify bucket (toFront n) }
    else
      let e := if e.hasTexts then e.touchText key true
        else { e with values := e.values.insert key .unset }.grown
      { e with byNumber := e.byNumber.modify (numberBucket e.byNumber.size n) (n :: ·) }

/-- What an index is: a whole number, or a text. -/
inductive Index where
  | number (n : Int)
  | text (key : String)
deriving DecidableEq, Repr

/-- The index that a value is. Texts that look like numbers are texts. -/
def Index.of (format : String) : Value → Index
  | .number x =>
    match whole? x with
    | some n => if -Int.pow 2 63 < n && n < Int.pow 2 63 then .number n else .text (numberText format x)
    | none => .text (numberText format x)
  | v => .text (v.toText format)

/-- The text of an index. -/
def Index.key : Index → String
  | number n => toString n
  | text key => key

/-- The array after an index was looked for. -/
def touch (e : Elements) (adds : Bool) : Index → Elements
  | .number n => e.touchNumber n adds
  | .text key => e.touchText key adds

/-- The value under an index. -/
def get (e : Elements) (index : Index) : Value := (e.values.get? index.key).getD .unset

def contains (e : Elements) (index : Index) : Bool := e.values.contains index.key

/-- The array with a value under an index. -/
def set (e : Elements) (index : Index) (v : Value) : Elements :=
  let e := e.touch true index
  { e with values := e.values.insert index.key v }

/-- The array without an index. An array without values is like one that was never used. -/
def erase (e : Elements) (index : Index) : Elements :=
  if e.contains index then
    let key := index.key
    let e := (e.touch false index).spread
    let values := e.values.erase key
    if values.isEmpty then empty
    else
      let byText := e.byText.modify (textBucket e.byText.size key) (·.erase key)
      let byNumber := match key.toInt? with
        | some n =>
          if toString n = key then e.byNumber.modify (numberBucket e.byNumber.size n) (·.erase n)
          else e.byNumber
        | none => e.byNumber
      { e with values := values, byText := byText, byNumber := byNumber }
  else e.touch false index

/-- The texts of an array in the order of a loop over it, and the array after that. -/
def keys (e : Elements) : List String × Elements :=
  if e.size = 0 then ([], e)
  else
    let e := e.withTexts
    (e.byText.toList.flatten, e)

end Elements

end Rebuild.Shell.Awk
