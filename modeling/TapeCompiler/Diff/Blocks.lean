/-
# Common blocks of two lists of lines

Two lists of lines are compared by their common blocks. The longest common block
is found first, the earliest of several; then the parts before it and the parts
behind it are compared in the same way.

A line that occurs very often in the second list says little about what belongs
together. In a list of two hundred lines or more, lines that make up more than a
hundredth of it cannot start a block, though a block grows over them.
-/

import Std.Data.HashMap

namespace TapeCompiler.Diff

/-- A run of `size` lines that the first list has from `left` on and the second from `right`
on. -/
structure Block where
  left : Nat
  right : Nat
  size : Nat
  deriving DecidableEq, Repr

/-- The length from which on frequent lines are left out. -/
def popularFrom : Nat := 200

/-- Whether a line with so many places is too frequent in a list of a given length. -/
def isPopular (length places : Nat) : Bool :=
  decide (popularFrom ≤ length) && decide (length / 100 + 1 < places)

/-- The places of each line of a list, in ascending order. -/
abbrev Places := Std.HashMap String (List Nat)

/-- The places of all lines from a number on, added to those of later lines. -/
def placesFrom (start : Nat) (lines : List String) : Places :=
  ((lines.zipIdx start).reverse).foldl
    (fun places entry => places.insert entry.1 (entry.2 :: places.getD entry.1 [])) ∅

/-- The places of the lines that can start a block. -/
def rarePlaces (lines : List String) : Places :=
  (placesFrom 0 lines).filter fun _ places => !isPopular lines.length places.length

/-- Two lists under comparison. -/
structure Pair where
  left : Array String
  right : Array String
  /-- The places of the lines of `right` that can start a block. -/
  places : Places

/-- Set up a comparison. -/
def Pair.ofLists (left right : List String) : Pair :=
  ⟨left.toArray, right.toArray, rarePlaces right⟩

/-- The blocks that end at a line of the first list: for each place in the second list the size
of the block that ends there, the places ascending. They are made from those of the line before
by one step. -/
def nextRow (previous : List (Nat × Nat)) (places : List Nat) : List (Nat × Nat) :=
  match previous, places with
  | _, [] => []
  | [], place :: rest => (place, 1) :: nextRow [] rest
  | (before, size) :: others, place :: rest =>
    -- Both lists ascend, so a block that ended too early for this place is over.
    if before + 1 < place then nextRow others (place :: rest)
    else if before + 1 = place then (place, size + 1) :: nextRow others rest
    else (place, 1) :: nextRow ((before, size) :: others) rest
termination_by previous.length + places.length

/-- The larger of a block found before and one that ends at a line and a place; the earlier one
if they are equal. -/
def larger (line : Nat) (best : Block) (ending : Nat × Nat) : Block :=
  if best.size < ending.2 then ⟨line + 1 - ending.2, ending.1 + 1 - ending.2, ending.2⟩ else best

namespace Pair

/-- The places of a line within bounds. -/
def placesIn (pair : Pair) (line : String) (low high : Nat) : List Nat :=
  (pair.places.getD line []).filter fun place => decide (low ≤ place) && decide (place < high)

/-- The largest block of rare lines within bounds, the earliest of several, from a line on. -/
def largestFrom (pair : Pair) (low high : Nat) :
    Nat → List String → List (Nat × Nat) → Block → Block
  | _, [], _, best => best
  | line, text :: rest, row, best =>
    let next := nextRow row (pair.placesIn text low high)
    pair.largestFrom low high (line + 1) rest next (next.foldl (larger line) best)

/-- How many lines two runs share that end before given lines, within bounds. -/
def sharedBefore (pair : Pair) (leftLow rightLow : Nat) : Nat → Nat → Nat
  | left + 1, right + 1 =>
    if leftLow ≤ left ∧ rightLow ≤ right ∧ pair.left[left]? = pair.right[right]? then
      pair.sharedBefore leftLow rightLow left right + 1
    else 0
  | _, _ => 0

/-- How many lines two runs share from given lines on, within bounds. -/
def sharedFrom (pair : Pair) (leftHigh rightHigh left right : Nat) : Nat :=
  if left < leftHigh ∧ right < rightHigh ∧ pair.left[left]? = pair.right[right]? then
    pair.sharedFrom leftHigh rightHigh (left + 1) (right + 1) + 1
  else 0
termination_by leftHigh - left

/-- The longest common block within bounds. It may grow over frequent lines at both ends. -/
def longest (pair : Pair) (leftLow leftHigh rightLow rightHigh : Nat) : Block :=
  let best := pair.largestFrom rightLow rightHigh leftLow
    (pair.left.extract leftLow leftHigh).toList [] ⟨leftLow, rightLow, 0⟩
  -- The search starts at rare lines only; next to a block found, frequent lines count too.
  let before := pair.sharedBefore leftLow rightLow best.left best.right
  let behind := pair.sharedFrom leftHigh rightHigh (best.left + best.size) (best.right + best.size)
  ⟨best.left - before, best.right - before, before + best.size + behind⟩

/-- The common blocks within bounds, in ascending order. A longest block lies within the bounds;
asking for that shows that the parts beside it are smaller. -/
def blocksWithin (pair : Pair) (leftLow leftHigh rightLow rightHigh : Nat) : List Block :=
  let block := pair.longest leftLow leftHigh rightLow rightHigh
  if _within : 0 < block.size ∧ leftLow ≤ block.left ∧ block.left + block.size ≤ leftHigh then
    pair.blocksWithin leftLow block.left rightLow block.right ++
      block :: pair.blocksWithin (block.left + block.size) leftHigh
        (block.right + block.size) rightHigh
  else []
termination_by leftHigh - leftLow
decreasing_by
  all_goals simp +zetaDelta only at _within ⊢
  all_goals omega

end Pair

/-- Blocks with those put together that touch. -/
def joinTouching : List Block → List Block
  | first :: second :: rest =>
    if first.left + first.size = second.left ∧ first.right + first.size = second.right then
      joinTouching (⟨first.left, first.right, first.size + second.size⟩ :: rest)
    else first :: joinTouching (second :: rest)
  | blocks => blocks
termination_by blocks => blocks.length

/-- The common blocks of two lists of lines, in ascending order and none touching another. -/
def commonBlocks (left right : List String) : List Block :=
  joinTouching ((Pair.ofLists left right).blocksWithin 0 left.length 0 right.length)

end TapeCompiler.Diff
