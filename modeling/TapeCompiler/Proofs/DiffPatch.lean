/-
# A unified diff is a patch

What a hunk says can be read off its lines: those marked as shared or removed stood in the
first list, and those marked as shared or added stand in the second. Its header counts them
and says where they stand. A list is patched by putting the second kind of lines in the place
of the first, hunk by hunk, and keeping all that lies between hunks.

The diff of two lists patches the first into the second. This holds whatever blocks the
comparison found, since everything outside the hunks is shared.
-/

import Mathlib.Data.List.Basic
import TapeCompiler.Proofs.EditTiling

namespace TapeCompiler.Diff

/-! ## Hunks by their lines -/

/-- What the mark of a line says: both lists have the line, only the first, or only the second. -/
inductive Mark
  | shared
  | removed
  | added
  deriving DecidableEq, Repr

/-- A mark as it stands before a line. -/
def Mark.text : Mark → String
  | shared => " "
  | removed => "-"
  | added => "+"

/-- The texts of marked lines, those with one mark left out. -/
def withoutMark (mark : Mark) (lines : List (Mark × String)) : List String :=
  (lines.filter fun line => line.1 ≠ mark).map Prod.snd

/-- A hunk: how many lines of each list come before it, and its marked lines. -/
structure Hunk where
  left : Nat
  right : Nat
  lines : List (Mark × String)

/-- A range in a header, by the number of lines before it and its own number of lines. A range of
one line has no count, and an empty range shows the line before it. -/
def placeText (before : Nat) : Nat → String
  | 0 => toString before ++ ",0"
  | 1 => toString (before + 1)
  | count => toString (before + 1) ++ "," ++ toString count

namespace Hunk

/-- The lines that the first list has. -/
def old (hunk : Hunk) : List String := withoutMark .added hunk.lines

/-- The lines that the second list has. -/
def new (hunk : Hunk) : List String := withoutMark .removed hunk.lines

/-- A hunk as it is written. -/
def written (hunk : Hunk) : List String :=
  ("@@ -" ++ placeText hunk.left hunk.old.length ++ " +" ++
      placeText hunk.right hunk.new.length ++ " @@\n") ::
    hunk.lines.map fun line => line.1.text ++ line.2

end Hunk

/-- Hunks as a diff of two named lists. -/
def writtenDiff (leftName rightName : String) : List Hunk → List String
  | [] => []
  | hunks =>
    ("--- " ++ leftName ++ "\n") :: ("+++ " ++ rightName ++ "\n") :: hunks.flatMap Hunk.written

/-- The lines from a place on with the old lines of each hunk replaced by its new ones. -/
def patchFrom (lines : List String) (done : Nat) : List Hunk → List String
  | [] => lines.drop done
  | hunk :: rest =>
    (lines.drop done).take (hunk.left - done) ++ hunk.new ++
      patchFrom lines (hunk.left + hunk.old.length) rest

/-! ## Lines of ranges -/

variable {pair : Pair} {group : List Edit} {left right leftEnd rightEnd : Nat}

namespace Range

theorem of_eq (start stop : Nat) (lines : Array String) :
    (⟨start, stop⟩ : Range).of lines = (lines.toList.drop start).take (stop - start) := by
  simp [Range.of, List.extract_eq_take_drop]

theorem of_append {start middle stop : Nat} (h : start ≤ middle) (h' : middle ≤ stop)
    (lines : Array String) :
    (⟨start, middle⟩ : Range).of lines ++ (⟨middle, stop⟩ : Range).of lines =
      (⟨start, stop⟩ : Range).of lines := by
  rw [of, of, of, ← Array.toList_append, Array.extract_append_extract, Nat.min_eq_left h,
    Nat.max_eq_right h']

theorem length_of {start stop : Nat} {lines : Array String} (h : stop ≤ lines.size) :
    ((⟨start, stop⟩ : Range).of lines).length = stop - start := by
  rw [of, Array.length_toList, Array.size_extract, Nat.min_eq_left h]

theorem text_eq (start count : Nat) :
    (⟨start, start + count⟩ : Range).text = placeText start count := by
  unfold text
  rw [Nat.add_sub_cancel_left]
  match count with
  | 0 => rfl
  | 1 => rfl
  | count + 2 => rw [if_neg (by omega), if_neg (by omega)]; rfl

end Range

theorem Pair.Agree.of_eq {size : Nat} (h : pair.Agree left right size) :
    (⟨left, left + size⟩ : Range).of pair.left = (⟨right, right + size⟩ : Range).of pair.right := by
  rw [Range.of_eq, Range.of_eq, Nat.add_sub_cancel_left, Nat.add_sub_cancel_left]
  apply List.ext_getElem?
  intro k
  rw [List.getElem?_take, List.getElem?_take]
  by_cases hk : k < size
  · have hline := h k hk
    rw [if_pos hk, if_pos hk, List.getElem?_drop, List.getElem?_drop, Array.getElem?_toList,
      Array.getElem?_toList, hline]
  · rw [if_neg hk, if_neg hk]

/-! ## Groups of edits as hunks -/

/-- The lines of an edit, each with its mark. -/
def Edit.marked (pair : Pair) (edit : Edit) : List (Mark × String) :=
  if edit.shared then (edit.left.of pair.left).map (Mark.shared, ·)
  else (edit.left.of pair.left).map (Mark.removed, ·) ++
    (edit.right.of pair.right).map (Mark.added, ·)

/-- The hunk that shows a group of edits. -/
def Hunk.ofGroup (pair : Pair) (group : List Edit) : Hunk where
  left := (cover Edit.left group).start
  right := (cover Edit.right group).start
  lines := group.flatMap (Edit.marked pair)

theorem withoutMark_append (mark : Mark) (first second : List (Mark × String)) :
    withoutMark mark (first ++ second) = withoutMark mark first ++ withoutMark mark second := by
  simp [withoutMark]

/-- Lines that all have one mark stay or go together. -/
theorem withoutMark_map (mark other : Mark) (lines : List String) :
    withoutMark mark (lines.map (other, ·)) = if other = mark then [] else lines := by
  by_cases h : other = mark
  · simp [withoutMark, h]
  · simp [withoutMark, h, List.filter_eq_self.2, Function.comp_def]

theorem Edit.map_marked (pair : Pair) (edit : Edit) :
    ((edit.marked pair).map fun line => line.1.text ++ line.2) =
      edit.lines pair.left pair.right := by
  unfold marked lines
  split
  · rw [List.map_map]
    rfl
  · rw [List.map_append, List.map_map, List.map_map]
    rfl

namespace Pair.Tiles

variable (h : pair.Tiles left right group leftEnd rightEnd)
include h

theorem cover_eq (hgroup : group ≠ []) :
    cover Edit.left group = ⟨left, leftEnd⟩ ∧ cover Edit.right group = ⟨right, rightEnd⟩ := by
  -- The first edit says where the group starts.
  have hstart : (group.head?.map fun edit => (edit.left.start, edit.right.start)) =
      some (left, right) := by
    cases h with
    | nil => exact absurd rfl hgroup
    | change => rfl
    | shared => rfl
  -- The last edit says where it ends.
  have hend : (group.getLast?.map fun edit => (edit.left.stop, edit.right.stop)) =
      some (leftEnd, rightEnd) := by
    obtain ⟨init, hconcat⟩ := List.getLast?_eq_some_iff.1 (List.getLast?_eq_some_getLast hgroup)
    rw [hconcat] at h
    obtain ⟨leftNext, rightNext, -, hlast⟩ := h.exists_of_append
    rw [List.getLast?_eq_some_getLast hgroup]
    generalize group.getLast hgroup = last at hlast
    cases hlast with
    | change _ _ behind =>
      cases behind
      rfl
    | shared _ behind =>
      cases behind
      rfl
  obtain ⟨first, hfirst, hplaces⟩ := Option.map_eq_some_iff.1 hstart
  obtain ⟨last, hlast, hplaces'⟩ := Option.map_eq_some_iff.1 hend
  obtain ⟨rfl, rfl⟩ := Prod.mk.inj hplaces
  obtain ⟨rfl, rfl⟩ := Prod.mk.inj hplaces'
  rw [cover, cover, hfirst, hlast]
  exact ⟨rfl, rfl⟩

/-- The lines marked as shared or removed are those of the first list. -/
theorem old_ofGroup : (Hunk.ofGroup pair group).old = (⟨left, leftEnd⟩ : Range).of pair.left := by
  induction h with
  | nil left right => simp [Hunk.old, Hunk.ofGroup, Range.of, withoutMark]
  | change left_le right_le behind ih =>
    rw [← Range.of_append left_le behind.le.1, ← ih]
    simp [Hunk.old, Hunk.ofGroup, Edit.marked, withoutMark_append, withoutMark_map]
  | shared agree behind ih =>
    rw [← Range.of_append (Nat.le_add_right _ _) behind.le.1, ← ih]
    simp [Hunk.old, Hunk.ofGroup, Edit.marked, withoutMark_append, withoutMark_map]

/-- The lines marked as shared or added are those of the second list. -/
theorem new_ofGroup :
    (Hunk.ofGroup pair group).new = (⟨right, rightEnd⟩ : Range).of pair.right := by
  induction h with
  | nil left right => simp [Hunk.new, Hunk.ofGroup, Range.of, withoutMark]
  | change left_le right_le behind ih =>
    rw [← Range.of_append right_le behind.le.2, ← ih]
    simp [Hunk.new, Hunk.ofGroup, Edit.marked, withoutMark_append, withoutMark_map]
  | shared agree behind ih =>
    rw [← Range.of_append (Nat.le_add_right _ _) behind.le.2, ← ih, ← agree.of_eq]
    simp [Hunk.new, Hunk.ofGroup, Edit.marked, withoutMark_append, withoutMark_map]

end Pair.Tiles

/-- A hunk that stands between two places in each list and has exactly the lines in between. -/
structure Hunk.Spans (pair : Pair) (left right leftEnd rightEnd : Nat) (hunk : Hunk) : Prop where
  left_eq : hunk.left = left
  right_eq : hunk.right = right
  old_eq : hunk.old = (⟨left, leftEnd⟩ : Range).of pair.left
  new_eq : hunk.new = (⟨right, rightEnd⟩ : Range).of pair.right
  left_end : hunk.left + hunk.old.length = leftEnd
  right_end : hunk.right + hunk.new.length = rightEnd

theorem Pair.Tiles.spans_ofGroup (h : pair.Tiles left right group leftEnd rightEnd)
    (hgroup : group ≠ []) (hleft : leftEnd ≤ pair.left.size) (hright : rightEnd ≤ pair.right.size) :
    (Hunk.ofGroup pair group).Spans pair left right leftEnd rightEnd := by
  obtain ⟨hcover, hcover'⟩ := h.cover_eq hgroup
  have hstart : (Hunk.ofGroup pair group).left = left := congrArg Range.start hcover
  have hstart' : (Hunk.ofGroup pair group).right = right := congrArg Range.start hcover'
  obtain ⟨hle, hle'⟩ := h.le
  refine ⟨hstart, hstart', h.old_ofGroup, h.new_ofGroup, ?_, ?_⟩
  · rw [hstart, h.old_ofGroup, Range.length_of hleft]
    omega
  · rw [hstart', h.new_ofGroup, Range.length_of hright]
    omega

/-- A group is written as its hunk: the header counts the lines that follow it. -/
theorem Pair.Tiles.hunkLines_eq (h : pair.Tiles left right group leftEnd rightEnd)
    (hgroup : group ≠ []) (hleft : leftEnd ≤ pair.left.size) (hright : rightEnd ≤ pair.right.size) :
    hunkLines pair.left pair.right group = (Hunk.ofGroup pair group).written := by
  obtain ⟨hcover, hcover'⟩ := h.cover_eq hgroup
  have hspans := h.spans_ofGroup hgroup hleft hright
  have hlines : (Hunk.ofGroup pair group).lines.map (fun line => line.1.text ++ line.2) =
      group.flatMap fun edit => edit.lines pair.left pair.right := by
    rw [Hunk.ofGroup, List.map_flatMap]
    simp only [Edit.map_marked]
  rw [hunkLines, headerLine, hcover, hcover', Hunk.written, hlines, ← hspans.left_end,
    ← hspans.right_end, hspans.left_eq, hspans.right_eq, Range.text_eq, Range.text_eq]

/-! ## All hunks -/

variable {groups : List (List Edit)} {least : Nat}

namespace Pair.Spaced

theorem le (h : pair.Spaced least left right groups leftEnd rightEnd) :
    left ≤ leftEnd ∧ right ≤ rightEnd := by
  induction h with
  | nil agree => omega
  | cons _ _ _ tiles _ ih =>
    have := tiles.le
    omega

/-- Every group tiles its part of both lists, behind the first gap. -/
theorem exists_tiles (h : pair.Spaced least left right groups leftEnd rightEnd) :
    ∀ group ∈ groups, group ≠ [] ∧ ∃ l r l' r', pair.Tiles l r group l' r' ∧
      left + least ≤ l ∧ right + least ≤ r ∧ l' ≤ leftEnd ∧ r' ≤ rightEnd := by
  induction h with
  | nil => nofun
  | cons agree le_size nonempty tiles behind ih =>
    have hbefore := tiles.le
    have hbehind := behind.le
    rw [List.forall_mem_cons]
    refine ⟨⟨nonempty, _, _, _, _, tiles, by omega, by omega, hbehind.1, hbehind.2⟩, ?_⟩
    intro other hother
    obtain ⟨hsome, l, r, l', r', htiles, hl, hr, hl', hr'⟩ := ih other hother
    exact ⟨hsome, l, r, l', r', htiles, by omega, by omega, hl', hr'⟩

section Within

variable (hleft : leftEnd = pair.left.size) (hright : rightEnd = pair.right.size)
include hleft hright

theorem exists_spans (h : pair.Spaced least left right groups leftEnd rightEnd) :
    ∀ hunk ∈ groups.map (Hunk.ofGroup pair), ∃ l r l' r', hunk.Spans pair l r l' r' ∧
      left + least ≤ l ∧ right + least ≤ r ∧ l' ≤ leftEnd ∧ r' ≤ rightEnd := by
  intro hunk hhunk
  obtain ⟨group, hgroup, rfl⟩ := List.mem_map.1 hhunk
  obtain ⟨hsome, l, r, l', r', htiles, hl, hr, hl', hr'⟩ := h.exists_tiles group hgroup
  exact ⟨l, r, l', r', htiles.spans_ofGroup hsome (by omega) (by omega), hl, hr, hl', hr'⟩

/-- Each hunk ends before the next one starts, in both lists. -/
theorem pairwise_hunks (h : pair.Spaced least left right groups leftEnd rightEnd) :
    (groups.map (Hunk.ofGroup pair)).Pairwise fun first second =>
      first.left + first.old.length < second.left ∧
        first.right + first.new.length < second.right := by
  induction h with
  | nil => exact .nil
  | cons agree le_size nonempty tiles behind ih =>
    have hbehind := behind.le
    rw [List.map_cons, List.pairwise_cons]
    refine ⟨fun second hsecond => ?_, ih hleft hright⟩
    have hfirst := tiles.spans_ofGroup nonempty (by omega) (by omega)
    obtain ⟨l, r, _, _, hspans, hl, hr, -⟩ := behind.exists_spans hleft hright second hsecond
    rw [hfirst.left_end, hfirst.right_end, hspans.left_eq, hspans.right_eq]
    omega

theorem flatMap_hunkLines (h : pair.Spaced least left right groups leftEnd rightEnd) :
    groups.flatMap (hunkLines pair.left pair.right) =
      (groups.map (Hunk.ofGroup pair)).flatMap Hunk.written := by
  rw [List.flatMap_map]
  refine List.flatMap_congr fun group hgroup => ?_
  obtain ⟨hsome, _, _, _, _, htiles, -, -, hl', hr'⟩ := h.exists_tiles group hgroup
  exact htiles.hunkLines_eq hsome (by omega) (by omega)

/-- Replacing the old lines of every hunk by its new ones turns what is left of the first list into
what is left of the second. -/
theorem patchFrom_hunks (h : pair.Spaced least left right groups leftEnd rightEnd) :
    patchFrom pair.left.toList left (groups.map (Hunk.ofGroup pair)) =
      (⟨right, rightEnd⟩ : Range).of pair.right := by
  induction h with
  | nil agree =>
    rw [← agree.of_eq, Range.of_eq, hleft, List.map_nil, patchFrom, List.take_of_length_le]
    simp
  | cons agree le_size nonempty tiles behind ih =>
    have hends := behind.le
    have hspans := tiles.spans_ofGroup nonempty (by omega) (by omega)
    have hplaces := tiles.le
    -- The gap before the hunk is shared, the hunk has the lines of its range, and the rest follows.
    rw [List.map_cons, patchFrom, hspans.left_end, ih hleft hright, hspans.left_eq, hspans.new_eq,
      ← Range.of_eq, agree.of_eq, Range.of_append, Range.of_append]
    all_goals omega

end Within

end Pair.Spaced

/-! ## The diff of two lists -/

theorem Hunk.Spans.eq_take_drop {hunk : Hunk}
    (h : hunk.Spans pair left right leftEnd rightEnd) :
    hunk.old = (pair.left.toList.drop hunk.left).take hunk.old.length ∧
      hunk.new = (pair.right.toList.drop hunk.right).take hunk.new.length := by
  obtain ⟨rfl, rfl, hold, hnew, rfl, rfl⟩ := h
  rw [Range.of_eq, Nat.add_sub_cancel_left] at hold hnew
  exact ⟨hold, hnew⟩

/-- The hunks of the diff of two lists. -/
def diffHunks (left right : List String) : List Hunk :=
  (hunks left right).map (Hunk.ofGroup (Pair.ofLists left right))

theorem unified_eq_writtenDiff (leftName rightName : String) (left right : List String) :
    unified leftName rightName left right =
      writtenDiff leftName rightName (diffHunks left right) := by
  have hlines : (hunks left right).flatMap (hunkLines left.toArray right.toArray) =
      (diffHunks left right).flatMap Hunk.written :=
    (Pair.spaced_hunks left right).flatMap_hunkLines rfl rfl
  unfold unified diffHunks at *
  cases hhunks : hunks left right with
  | nil => rfl
  | cons group rest =>
    rw [hhunks] at hlines
    dsimp only
    rw [hlines]
    rfl

theorem patchFrom_diffHunks (left right : List String) :
    patchFrom left 0 (diffHunks left right) = right := by
  have hpatch := (Pair.spaced_hunks left right).patchFrom_hunks rfl rfl
  have hwhole : (⟨0, right.length⟩ : Range).of right.toArray = right := by simp [Range.of_eq]
  exact hpatch.trans hwhole

/-- **A diff is a patch.** The diff of any two lists of lines is written from hunks, each with a
header that gives its places and its numbers of lines. Each hunk ends before the next one starts, in
both lists. Its shared and removed lines are exactly those of the first list in its range, and its
shared and added lines exactly those of the second. Replacing the range of every hunk in the first
list by its shared and added lines gives the second list. -/
theorem unified_is_patch (leftName rightName : String) (left right : List String) :
    ∃ hunks : List Hunk,
      unified leftName rightName left right = writtenDiff leftName rightName hunks ∧
      (hunks.Pairwise fun first second =>
        first.left + first.old.length < second.left ∧
          first.right + first.new.length < second.right) ∧
      (∀ hunk ∈ hunks,
        (hunk.left + hunk.old.length ≤ left.length ∧
          hunk.old = (left.drop hunk.left).take hunk.old.length) ∧
        hunk.right + hunk.new.length ≤ right.length ∧
          hunk.new = (right.drop hunk.right).take hunk.new.length) ∧
      patchFrom left 0 hunks = right := by
  have hspaced := Pair.spaced_hunks left right
  refine ⟨diffHunks left right, unified_eq_writtenDiff leftName rightName left right,
    hspaced.pairwise_hunks rfl rfl, ?_, patchFrom_diffHunks left right⟩
  intro hunk hhunk
  obtain ⟨_, _, _, _, hspans, -, -, hleft, hright⟩ := hspaced.exists_spans rfl rfl hunk hhunk
  obtain ⟨hold, hnew⟩ := hspans.eq_take_drop
  rw [← hspans.left_end] at hleft
  rw [← hspans.right_end] at hright
  exact ⟨⟨hleft, hold⟩, hright, hnew⟩

end TapeCompiler.Diff
