/-
# Edits tile both lists

The edits of a comparison follow one another without a gap in either list, from the first
lines to the last. A shared stretch has the same lines on both sides, since it is a common
block. Cutting the stretches at both ends and in the middle leaves out lines that both lists
share, and so the groups of edits follow one another with gaps in which the lists agree.
-/

import TapeCompiler.Diff.Unified
import TapeCompiler.Proofs.CommonBlocks

namespace TapeCompiler.Diff

variable {pair : Pair} {script first second group : List Edit}
variable {left right leftNext rightNext leftEnd rightEnd : Nat}

/-! ## Edits without a gap -/

/-- Edits that lead from two places to two later ones, each going on where the one before it
ended. A shared edit has the same lines on both sides. -/
inductive Pair.Tiles (pair : Pair) : Nat → Nat → List Edit → Nat → Nat → Prop
  | nil (left right : Nat) : pair.Tiles left right [] left right
  | change {left right leftNext rightNext leftEnd rightEnd : Nat} {rest : List Edit}
    (left_le : left ≤ leftNext) (right_le : right ≤ rightNext)
    (behind : pair.Tiles leftNext rightNext rest leftEnd rightEnd) :
    pair.Tiles left right (⟨false, ⟨left, leftNext⟩, ⟨right, rightNext⟩⟩ :: rest) leftEnd rightEnd
  | shared {left right size leftEnd rightEnd : Nat} {rest : List Edit}
    (agree : pair.Agree left right size)
    (behind : pair.Tiles (left + size) (right + size) rest leftEnd rightEnd) :
    pair.Tiles left right (⟨true, ⟨left, left + size⟩, ⟨right, right + size⟩⟩ :: rest)
      leftEnd rightEnd

namespace Pair.Tiles

theorem le (h : pair.Tiles left right script leftEnd rightEnd) :
    left ≤ leftEnd ∧ right ≤ rightEnd := by
  induction h with
  | nil left right => exact ⟨Nat.le_refl _, Nat.le_refl _⟩
  | change left_le right_le _ ih => omega
  | shared _ _ ih => omega

theorem append (h : pair.Tiles left right first leftNext rightNext)
    (h' : pair.Tiles leftNext rightNext second leftEnd rightEnd) :
    pair.Tiles left right (first ++ second) leftEnd rightEnd := by
  induction h with
  | nil left right => exact h'
  | change left_le right_le _ ih => exact .change left_le right_le (ih h')
  | shared agree _ ih => exact .shared agree (ih h')

theorem exists_of_append (h : pair.Tiles left right (first ++ second) leftEnd rightEnd) :
    ∃ leftNext rightNext, pair.Tiles left right first leftNext rightNext ∧
      pair.Tiles leftNext rightNext second leftEnd rightEnd := by
  induction first generalizing left right with
  | nil => exact ⟨left, right, .nil left right, h⟩
  | cons edit rest ih =>
    cases h with
    | change left_le right_le behind =>
      obtain ⟨leftNext, rightNext, hrest, hsecond⟩ := ih behind
      exact ⟨leftNext, rightNext, .change left_le right_le hrest, hsecond⟩
    | shared agree behind =>
      obtain ⟨leftNext, rightNext, hrest, hsecond⟩ := ih behind
      exact ⟨leftNext, rightNext, .shared agree hrest, hsecond⟩

/-- Edits without a change lead over lines that the lists share. -/
theorem exists_agree_of_not_hasChange (h : pair.Tiles left right group leftEnd rightEnd)
    (hchange : hasChange group = false) :
    ∃ size, pair.Agree left right size ∧ leftEnd = left + size ∧ rightEnd = right + size := by
  induction h with
  | nil left right => exact ⟨0, .zero pair left right, rfl, rfl⟩
  | change _ _ _ _ => simp [hasChange] at hchange
  | shared agree _ ih =>
    obtain ⟨size, hagree, rfl, rfl⟩ := ih (by simpa [hasChange] using hchange)
    exact ⟨_, agree.append hagree, Nat.add_assoc .., Nat.add_assoc ..⟩

end Pair.Tiles

/-- The stretches between and in common blocks tile what is left of both lists. -/
theorem Pair.Ascending.tiles_editsFrom {blocks : List Block}
    (h : pair.Ascending leftEnd rightEnd left right blocks) :
    pair.Tiles left right (editsFrom left right leftEnd rightEnd blocks) leftEnd rightEnd := by
  induction blocks generalizing left right with
  | nil =>
    obtain ⟨hleft, hright⟩ := h
    unfold editsFrom
    by_cases hrest : left < leftEnd ∨ right < rightEnd
    · rw [if_pos hrest]
      exact .change hleft hright (.nil leftEnd rightEnd)
    · rw [if_neg hrest]
      obtain rfl : left = leftEnd := by omega
      obtain rfl : right = rightEnd := by omega
      exact .nil left right
  | cons block rest ih =>
    obtain ⟨hblock, hrest⟩ := h
    have hbehind := Pair.Tiles.shared hblock.agree (ih hrest)
    unfold editsFrom
    by_cases hgap : left < block.left ∨ right < block.right
    · rw [if_pos hgap]
      exact .change hblock.left_low hblock.right_low hbehind
    · rw [if_neg hgap]
      have hleft : left = block.left := by have := hblock.left_low; omega
      have hright : right = block.right := by have := hblock.right_low; omega
      rw [hleft, hright]
      exact hbehind

theorem Pair.tiles_edits (left right : List String) :
    (Pair.ofLists left right).Tiles 0 0 (edits left right) left.length right.length :=
  (ascending_commonBlocks left right).tiles_editsFrom

/-! ## Cutting shared stretches -/

section Cutting

variable {size cut rest : Nat}

theorem Edit.lastLines_shared (left right : Nat) (hsize : cut + rest = size)
    (hrest : rest = min size contextSize) :
    (⟨true, ⟨left, left + size⟩, ⟨right, right + size⟩⟩ : Edit).lastLines =
      ⟨true, ⟨left + cut, left + cut + rest⟩, ⟨right + cut, right + cut + rest⟩⟩ := by
  simp only [lastLines, Edit.mk.injEq, Range.mk.injEq, true_and]
  omega

theorem Edit.firstLines_shared (left right : Nat) (hrest : rest = min size contextSize) :
    (⟨true, ⟨left, left + size⟩, ⟨right, right + size⟩⟩ : Edit).firstLines =
      ⟨true, ⟨left, left + rest⟩, ⟨right, right + rest⟩⟩ := by
  simp only [firstLines, Edit.mk.injEq, Range.mk.injEq, true_and]
  omega

namespace Pair.Agree

/-- A stretch cut to its last lines: the lists agree on what is cut off, and on what is left. -/
theorem exists_lastLines (h : pair.Agree left right size) :
    ∃ cut rest, cut + rest = size ∧ pair.Agree left right cut ∧
      pair.Agree (left + cut) (right + cut) rest ∧
      (⟨true, ⟨left, left + size⟩, ⟨right, right + size⟩⟩ : Edit).lastLines =
        ⟨true, ⟨left + cut, left + cut + rest⟩, ⟨right + cut, right + cut + rest⟩⟩ := by
  have hsize : size - contextSize + min size contextSize = size := by omega
  exact ⟨size - contextSize, min size contextSize, hsize, h.front (by omega), h.part (by omega),
    Edit.lastLines_shared left right hsize rfl⟩

/-- A stretch cut to its first lines. -/
theorem exists_firstLines (h : pair.Agree left right size) :
    ∃ rest cut, rest + cut = size ∧ pair.Agree left right rest ∧
      pair.Agree (left + rest) (right + rest) cut ∧
      (⟨true, ⟨left, left + size⟩, ⟨right, right + size⟩⟩ : Edit).firstLines =
        ⟨true, ⟨left, left + rest⟩, ⟨right, right + rest⟩⟩ := by
  have hsize : min size contextSize + (size - contextSize) = size := by omega
  exact ⟨min size contextSize, size - contextSize, hsize, h.front (by omega), h.part (by omega),
    Edit.firstLines_shared left right rfl⟩

/-- A long stretch falls into its first lines, a gap, and its last lines. -/
theorem exists_gap (h : pair.Agree left right size) (hlong : 2 * contextSize < size) :
    ∃ gap, 1 ≤ gap ∧ contextSize + gap + contextSize = size ∧
      pair.Agree left right contextSize ∧
      pair.Agree (left + contextSize) (right + contextSize) gap ∧
      pair.Agree (left + contextSize + gap) (right + contextSize + gap) contextSize ∧
      (⟨true, ⟨left, left + size⟩, ⟨right, right + size⟩⟩ : Edit).firstLines =
        ⟨true, ⟨left, left + contextSize⟩, ⟨right, right + contextSize⟩⟩ ∧
      (⟨true, ⟨left, left + size⟩, ⟨right, right + size⟩⟩ : Edit).lastLines =
        ⟨true, ⟨left + contextSize + gap, left + contextSize + gap + contextSize⟩,
          ⟨right + contextSize + gap, right + contextSize + gap + contextSize⟩⟩ := by
  obtain ⟨gap, rfl⟩ : ∃ gap, size = contextSize + gap + contextSize :=
    ⟨size - 2 * contextSize, by omega⟩
  have hbehind : pair.Agree (left + contextSize) (right + contextSize) (gap + contextSize) :=
    h.part (by omega)
  have hlast := Edit.lastLines_shared left right (rfl : contextSize + gap + contextSize = _)
    (by omega)
  rw [← Nat.add_assoc left contextSize gap, ← Nat.add_assoc right contextSize gap] at hlast
  exact ⟨gap, by omega, rfl, h.front (by omega), hbehind.front (by omega),
    hbehind.part (Nat.le_refl _), Edit.firstLines_shared left right (by omega), hlast⟩

end Pair.Agree

end Cutting

/-- What is cut off at the start is shared. -/
theorem Pair.Tiles.exists_trimStart (h : pair.Tiles left right script leftEnd rightEnd) :
    ∃ cut, pair.Agree left right cut ∧
      pair.Tiles (left + cut) (right + cut) (trimStart script) leftEnd rightEnd := by
  cases h with
  | nil => exact ⟨0, .zero pair _ _, .nil _ _⟩
  | change left_le right_le behind => exact ⟨0, .zero pair _ _, .change left_le right_le behind⟩
  | shared agree behind =>
    obtain ⟨cut, rest, rfl, hcut, hrest, hlast⟩ := agree.exists_lastLines
    refine ⟨cut, hcut, ?_⟩
    rw [trimStart, if_pos rfl, hlast]
    rw [← Nat.add_assoc, ← Nat.add_assoc] at behind
    exact .shared hrest behind

/-- What is cut off at the end is shared. -/
theorem Pair.Tiles.exists_trimEnd (h : pair.Tiles left right script leftEnd rightEnd) :
    ∃ leftNext rightNext cut, pair.Tiles left right (trimEnd script) leftNext rightNext ∧
      pair.Agree leftNext rightNext cut ∧ leftEnd = leftNext + cut ∧
      rightEnd = rightNext + cut := by
  unfold trimEnd
  split
  · next last hlast =>
    split
    · next hshared =>
      obtain ⟨init, rfl⟩ := List.getLast?_eq_some_iff.1 hlast
      obtain ⟨leftNext, rightNext, hinit, hend⟩ := h.exists_of_append
      cases hend with
      | change => cases hshared
      | shared agree behind =>
        cases behind
        obtain ⟨rest, cut, rfl, hrest, hcut, hfirst⟩ := agree.exists_firstLines
        refine ⟨leftNext + rest, rightNext + rest, cut, ?_, hcut, ?_, ?_⟩
        · rw [List.dropLast_concat, hfirst]
          exact hinit.append (.shared hrest (.nil _ _))
        · rw [Nat.add_assoc]
        · rw [Nat.add_assoc]
    · exact ⟨leftEnd, rightEnd, 0, h, .zero pair _ _, rfl, rfl⟩
  · exact ⟨leftEnd, rightEnd, 0, h, .zero pair _ _, rfl, rfl⟩

/-! ## Groups -/

/-- Groups of edits that lead from two places to two later ones, with gaps before, between and
behind them in which the lists agree. Before the first group the gap has at least `least` lines,
and between two groups there is a gap. -/
inductive Pair.Spaced (pair : Pair) : Nat → Nat → Nat → List (List Edit) → Nat → Nat → Prop
  | nil {least left right size : Nat} (agree : pair.Agree left right size) :
    pair.Spaced least left right [] (left + size) (right + size)
  | cons {least left right size leftNext rightNext leftEnd rightEnd : Nat} {group : List Edit}
    {rest : List (List Edit)} (agree : pair.Agree left right size) (le_size : least ≤ size)
    (nonempty : group ≠ [])
    (tiles : pair.Tiles (left + size) (right + size) group leftNext rightNext)
    (behind : pair.Spaced 1 leftNext rightNext rest leftEnd rightEnd) :
    pair.Spaced least left right (group :: rest) leftEnd rightEnd

/-- Shared lines behind the last group make the gap there longer. -/
theorem Pair.Spaced.extend {least size : Nat} {groups : List (List Edit)}
    (h : pair.Spaced least left right groups leftEnd rightEnd)
    (hagree : pair.Agree leftEnd rightEnd size) :
    pair.Spaced least left right groups (leftEnd + size) (rightEnd + size) := by
  induction h with
  | nil agree =>
    rw [Nat.add_assoc, Nat.add_assoc]
    exact .nil (agree.append hagree)
  | cons agree le_size nonempty tiles _ ih =>
    exact .cons agree le_size nonempty tiles (ih hagree)

/-- Grouping edits behind a group begun already. -/
theorem Pair.Tiles.spaced_groupFrom {least size : Nat} (hagree : pair.Agree left right size)
    (hsize : least ≤ size)
    (hgroup : pair.Tiles (left + size) (right + size) group leftNext rightNext)
    (h : pair.Tiles leftNext rightNext script leftEnd rightEnd) :
    pair.Spaced least left right (groupFrom group script) leftEnd rightEnd := by
  induction script generalizing least left right size group leftNext rightNext with
  | nil =>
    cases h
    unfold groupFrom
    by_cases hchange : hasChange group = true
    · rw [if_pos hchange]
      have hsome : group ≠ [] := by
        rintro rfl
        cases hchange
      exact .cons hagree hsize hsome hgroup (.nil (.zero pair _ _))
    · rw [if_neg hchange]
      obtain ⟨more, hmore, rfl, rfl⟩ :=
        hgroup.exists_agree_of_not_hasChange (Bool.not_eq_true _ ▸ hchange)
      rw [Nat.add_assoc, Nat.add_assoc]
      exact .nil (hagree.append hmore)
  | cons edit rest ih =>
    unfold groupFrom
    split
    · next hlong =>
      cases h with
      | change => cases hlong.1
      | shared agree behind =>
        -- The first lines of the stretch end one group and its last lines start the next.
        have hwidth := hlong.2
        dsimp only at hwidth
        rw [Nat.add_sub_cancel_left] at hwidth
        obtain ⟨gap, hgap, rfl, hfirst, hmiddle, hlast, hfirstLines, hlastLines⟩ :=
          agree.exists_gap hwidth
        rw [hfirstLines, hlastLines]
        rw [← Nat.add_assoc, ← Nat.add_assoc, ← Nat.add_assoc, ← Nat.add_assoc] at behind
        refine .cons hagree hsize (by simp) (hgroup.append (.shared hfirst (.nil _ _))) ?_
        exact ih hmiddle hgap (.shared hlast (.nil _ _)) behind
    · obtain ⟨leftMiddle, rightMiddle, hedit, hrest⟩ :
          ∃ leftMiddle rightMiddle, pair.Tiles leftNext rightNext [edit] leftMiddle rightMiddle ∧
            pair.Tiles leftMiddle rightMiddle rest leftEnd rightEnd := by
        rw [← List.singleton_append] at h
        exact h.exists_of_append
      exact ih hagree hsize (hgroup.append hedit) hrest

/-- The groups of a comparison, which its hunks show, have gaps between them, and all that is not
in a group is shared. -/
theorem Pair.spaced_hunks (left right : List String) :
    (Pair.ofLists left right).Spaced 0 0 0 (hunks left right) left.length right.length := by
  obtain ⟨cut, hcut, hstart⟩ := (Pair.tiles_edits left right).exists_trimStart
  obtain ⟨leftNext, rightNext, rest, hend, hrest, hleft, hright⟩ := hstart.exists_trimEnd
  rw [hleft, hright]
  exact (Pair.Tiles.spaced_groupFrom hcut (Nat.zero_le _) (.nil _ _) hend).extend hrest

end TapeCompiler.Diff
