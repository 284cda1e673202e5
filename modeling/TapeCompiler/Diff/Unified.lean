/-
# Unified diffs

A diff of two lists of lines is a list of edits: stretches that both share, and
stretches of the first list to be replaced by stretches of the second. Edits are
gathered into hunks, with up to three shared lines around them. A hunk starts with
the ranges it covers in both lists and then gives its lines, each marked as shared,
removed or added.
-/

import TapeCompiler.Diff.Blocks

namespace TapeCompiler.Diff

/-- Lines from `start` up to but not including `stop`. -/
structure Range where
  start : Nat
  stop : Nat
  deriving DecidableEq, Repr

/-- One stretch of a comparison. -/
structure Edit where
  /-- Whether both lists have the same lines here. -/
  shared : Bool
  left : Range
  right : Range
  deriving DecidableEq, Repr

/-- The number of shared lines shown around a change. -/
def contextSize : Nat := 3

/-- The stretches between and in the common blocks, from given lines on. -/
def editsFrom (left right leftEnd rightEnd : Nat) : List Block → List Edit
  | [] =>
    if left < leftEnd ∨ right < rightEnd then [⟨false, ⟨left, leftEnd⟩, ⟨right, rightEnd⟩⟩] else []
  | block :: rest =>
    let change : List Edit :=
      if left < block.left ∨ right < block.right then
        [⟨false, ⟨left, block.left⟩, ⟨right, block.right⟩⟩]
      else []
    let leftNext := block.left + block.size
    let rightNext := block.right + block.size
    change ++ ⟨true, ⟨block.left, leftNext⟩, ⟨block.right, rightNext⟩⟩ ::
      editsFrom leftNext rightNext leftEnd rightEnd rest

/-- All stretches of a comparison, in order. -/
def edits (left right : List String) : List Edit :=
  editsFrom 0 0 left.length right.length (commonBlocks left right)

/-- The last lines of a shared stretch. -/
def Edit.lastLines (edit : Edit) : Edit :=
  { edit with
    left := ⟨max edit.left.start (edit.left.stop - contextSize), edit.left.stop⟩
    right := ⟨max edit.right.start (edit.right.stop - contextSize), edit.right.stop⟩ }

/-- The first lines of a shared stretch. -/
def Edit.firstLines (edit : Edit) : Edit :=
  { edit with
    left := ⟨edit.left.start, min edit.left.stop (edit.left.start + contextSize)⟩
    right := ⟨edit.right.start, min edit.right.stop (edit.right.start + contextSize)⟩ }

/-- Edits with a shared stretch at the start cut to its last lines. -/
def trimStart : List Edit → List Edit
  | edit :: rest => if edit.shared then edit.lastLines :: rest else edit :: rest
  | [] => []

/-- Edits with a shared stretch at the end cut to its first lines. -/
def trimEnd (edits : List Edit) : List Edit :=
  match edits.getLast? with
  | some last => if last.shared then edits.dropLast ++ [last.firstLines] else edits
  | none => edits

/-- Whether a group of edits holds a change. -/
def hasChange (group : List Edit) : Bool := group.any fun edit => !edit.shared

/-- Edits gathered into groups, behind a group begun already. A shared stretch of more than twice
the context ends one group and starts the next. -/
def groupFrom (group : List Edit) : List Edit → List (List Edit)
  | [] => if hasChange group then [group] else []
  | edit :: rest =>
    if edit.shared ∧ 2 * contextSize < edit.left.stop - edit.left.start then
      -- The lines in the middle of the stretch are shown by neither group.
      (group ++ [edit.firstLines]) :: groupFrom [edit.lastLines] rest
    else groupFrom (group ++ [edit]) rest

/-- The hunks of a comparison. -/
def hunks (left right : List String) : List (List Edit) :=
  groupFrom [] (trimEnd (trimStart (edits left right)))

/-! ## Written form -/

/-- A range as a header shows it: the number of its first line and its length, the length left
out when it is one. An empty range shows the line before it. -/
def Range.text (range : Range) : String :=
  let length := range.stop - range.start
  if length = 1 then toString (range.start + 1)
  else if length = 0 then toString range.start ++ ",0"
  else toString (range.start + 1) ++ "," ++ toString length

/-- The lines of a range. -/
def Range.of (range : Range) (lines : Array String) : List String :=
  (lines.extract range.start range.stop).toList

/-- The lines of one edit, marked. -/
def Edit.lines (edit : Edit) (left right : Array String) : List String :=
  if edit.shared then (edit.left.of left).map (" " ++ ·)
  else (edit.left.of left).map ("-" ++ ·) ++ (edit.right.of right).map ("+" ++ ·)

/-- The range that a group of edits covers. -/
def cover (part : Edit → Range) (group : List Edit) : Range :=
  ⟨(group.head?.map fun edit => (part edit).start).getD 0,
    (group.getLast?.map fun edit => (part edit).stop).getD 0⟩

/-- The line that starts a hunk. -/
def headerLine (group : List Edit) : String :=
  "@@ -" ++ (cover Edit.left group).text ++ " +" ++ (cover Edit.right group).text ++ " @@\n"

/-- The lines of a hunk. -/
def hunkLines (left right : Array String) (group : List Edit) : List String :=
  headerLine group :: group.flatMap fun edit => edit.lines left right

/-- The lines of the diff that turns `left` into `right`; none if they are equal. -/
def unified (leftName rightName : String) (left right : List String) : List String :=
  match hunks left right with
  | [] => []
  | groups =>
    ("--- " ++ leftName ++ "\n") :: ("+++ " ++ rightName ++ "\n") ::
      groups.flatMap (hunkLines left.toArray right.toArray)

end TapeCompiler.Diff
