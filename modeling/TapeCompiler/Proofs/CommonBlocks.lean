/-
# What the search for common blocks finds

Two lists are compared through a table of places, rows of blocks that end at a line, and
extensions over frequent lines. Which block comes out depends on all of these. That
the lists have the same lines there does not: a block grows by one line at a time, and
only where the lines are equal. So every block that is found is common to both lists, and
the blocks of a comparison stand in ascending order in both, none overlapping another.
-/

import Std.Data.HashMap.Lemmas
import TapeCompiler.Diff.Blocks

namespace TapeCompiler.Diff

variable {pair : Pair} {leftLow leftHigh rightLow rightHigh : Nat}

/-! ## Runs of equal lines -/

/-- The two lists of a comparison have the same lines, so many of them, from two places on. -/
def Pair.Agree (pair : Pair) (left right size : Nat) : Prop :=
  ∀ k < size, pair.left[left + k]? = pair.right[right + k]?

namespace Pair.Agree

variable {left right first second size : Nat}

theorem zero (pair : Pair) (left right : Nat) : pair.Agree left right 0 := nofun

theorem append (h : pair.Agree left right first)
    (h' : pair.Agree (left + first) (right + first) second) :
    pair.Agree left right (first + second) := by
  intro k hk
  by_cases hfirst : k < first
  · exact h k hfirst
  · have hbehind := h' (k - first) (by omega)
    rwa [show left + first + (k - first) = left + k by omega,
      show right + first + (k - first) = right + k by omega] at hbehind

theorem front (h : pair.Agree left right size) (hsize : first ≤ size) :
    pair.Agree left right first := fun k hk => h k (Nat.lt_of_lt_of_le hk hsize)

/-- A part of a run is a run. -/
theorem part (h : pair.Agree left right size) (hsize : first + second ≤ size) :
    pair.Agree (left + first) (right + first) second := by
  intro k hk
  rw [Nat.add_assoc, Nat.add_assoc]
  exact h (first + k) (by omega)

end Pair.Agree

/-- A block that lies within bounds and is common to both lists. -/
structure Block.IsCommon (pair : Pair) (leftLow leftHigh rightLow rightHigh : Nat)
    (block : Block) : Prop where
  left_low : leftLow ≤ block.left
  left_high : block.left + block.size ≤ leftHigh
  right_low : rightLow ≤ block.right
  right_high : block.right + block.size ≤ rightHigh
  agree : pair.Agree block.left block.right block.size

namespace Block.IsCommon

variable {block : Block}

theorem widen {leftTop rightTop : Nat}
    (h : block.IsCommon pair leftLow leftHigh rightLow rightHigh)
    (hleft : leftHigh ≤ leftTop) (hright : rightHigh ≤ rightTop) :
    block.IsCommon pair leftLow leftTop rightLow rightTop where
  left_low := h.left_low
  left_high := Nat.le_trans h.left_high hleft
  right_low := h.right_low
  right_high := Nat.le_trans h.right_high hright
  agree := h.agree

theorem empty {left right : Nat} (hleftLow : leftLow ≤ left)
    (hleftHigh : left ≤ leftHigh) (hrightLow : rightLow ≤ right) (hrightHigh : right ≤ rightHigh) :
    Block.IsCommon pair leftLow leftHigh rightLow rightHigh ⟨left, right, 0⟩ :=
  ⟨hleftLow, hleftHigh, hrightLow, hrightHigh, .zero pair left right⟩

theorem one {left right : Nat} (hleftLow : leftLow ≤ left)
    (hleftHigh : left < leftHigh) (hrightLow : rightLow ≤ right) (hrightHigh : right < rightHigh)
    (h : pair.left[left]? = pair.right[right]?) :
    Block.IsCommon pair leftLow leftHigh rightLow rightHigh ⟨left, right, 1⟩ := by
  refine ⟨hleftLow, hleftHigh, hrightLow, hrightHigh, fun k (hk : k < 1) => ?_⟩
  obtain rfl : k = 0 := by omega
  exact h

/-- Two blocks that touch make one. -/
theorem append {left right first second leftTop rightTop leftMiddle rightMiddle : Nat}
    (h : Block.IsCommon pair leftLow leftTop rightLow rightTop ⟨left, right, first⟩)
    (h' : Block.IsCommon pair leftMiddle leftHigh rightMiddle rightHigh
      ⟨left + first, right + first, second⟩) :
    Block.IsCommon pair leftLow leftHigh rightLow rightHigh ⟨left, right, first + second⟩ where
  left_low := h.left_low
  left_high := by simpa only [Nat.add_assoc] using h'.left_high
  right_low := h.right_low
  right_high := by simpa only [Nat.add_assoc] using h'.right_high
  agree := h.agree.append h'.agree

end Block.IsCommon

/-! ## The table of places -/

/-- The table of a comparison lists a line only at places where the second list has it. -/
def Pair.Indexed (pair : Pair) : Prop :=
  ∀ line, ∀ place ∈ pair.places.getD line [], pair.right[place]? = some line

theorem mem_foldl_insert {places : Places} {entries : List (String × Nat)} {line : String}
    {place : Nat}
    (h : place ∈ (entries.foldl (fun places entry =>
      places.insert entry.1 (entry.2 :: places.getD entry.1 [])) places).getD line []) :
    place ∈ places.getD line [] ∨ (line, place) ∈ entries := by
  induction entries generalizing places with
  | nil => exact .inl h
  | cons entry rest ih =>
    rcases ih h with hbefore | hrest
    · rw [Std.HashMap.getD_insert] at hbefore
      split at hbefore
      · next hsame =>
        obtain rfl := eq_of_beq hsame
        rcases List.mem_cons.1 hbefore with rfl | hbefore
        · exact .inr List.mem_cons_self
        · exact .inl hbefore
      · exact .inl hbefore
    · exact .inr (List.mem_cons_of_mem _ hrest)

theorem getElem?_of_mem_placesFrom {lines : List String} {line : String} {place : Nat}
    (h : place ∈ (placesFrom 0 lines).getD line []) : lines[place]? = some line := by
  rcases mem_foldl_insert h with hempty | hentry
  · rw [Std.HashMap.getD_empty] at hempty
    cases hempty
  · rw [List.mem_reverse, List.mem_zipIdx_iff_getElem?] at hentry
    exact hentry

/-- Leaving frequent lines out takes entries away and adds none. -/
theorem mem_placesFrom_of_mem_rarePlaces {lines : List String} {line : String} {place : Nat}
    (h : place ∈ (rarePlaces lines).getD line []) : place ∈ (placesFrom 0 lines).getD line [] := by
  rw [rarePlaces, Std.HashMap.getD_filter'] at h
  rw [Std.HashMap.getD_eq_getD_getElem?]
  cases hfound : (placesFrom 0 lines)[line]? with
  | none =>
    rw [hfound] at h
    cases h
  | some places =>
    rw [hfound, Option.filter_some] at h
    split at h
    · exact h
    · cases h

theorem Pair.indexed_ofLists (left right : List String) : (Pair.ofLists left right).Indexed := by
  intro line place hplace
  have hfound := getElem?_of_mem_placesFrom (mem_placesFrom_of_mem_rarePlaces hplace)
  simpa [Pair.ofLists] using hfound

/-! ## Rows -/

/-- An entry that is new at one of the places, or goes on from an entry of the row before. -/
def GoesOn (previous : List (Nat × Nat)) (places : List Nat) (entry : Nat × Nat) : Prop :=
  entry.1 ∈ places ∧
    (entry.2 = 1 ∨ ∃ before size, (before, size) ∈ previous ∧ entry = (before + 1, size + 1))

theorem GoesOn.mono {previous others : List (Nat × Nat)} {places rest : List Nat}
    {entry : Nat × Nat} (h : GoesOn others rest entry) (hprevious : others ⊆ previous)
    (hplaces : rest ⊆ places) : GoesOn previous places entry := by
  refine ⟨hplaces h.1, h.2.imp_right ?_⟩
  rintro ⟨before, size, hmem, rfl⟩
  exact ⟨before, size, hprevious hmem, rfl⟩

theorem goesOn_of_mem_nextRow {previous : List (Nat × Nat)} {places : List Nat}
    {entry : Nat × Nat} (h : entry ∈ nextRow previous places) : GoesOn previous places entry := by
  fun_induction nextRow previous places with
  | case1 => cases h
  | case2 place rest ih =>
    rcases List.mem_cons.1 h with rfl | h
    · exact ⟨List.mem_cons_self, .inl rfl⟩
    · exact (ih h).mono (List.Subset.refl _) (List.subset_cons_self place rest)
  | case3 before size others place rest _ ih =>
    exact (ih h).mono (List.subset_cons_self _ others) (List.Subset.refl _)
  | case4 before size others rest _ ih =>
    rcases List.mem_cons.1 h with rfl | h
    · exact ⟨List.mem_cons_self, .inr ⟨before, size, List.mem_cons_self, rfl⟩⟩
    · exact (ih h).mono (List.subset_cons_self _ others) (List.subset_cons_self _ rest)
  | case5 before size others place rest _ _ ih =>
    rcases List.mem_cons.1 h with rfl | h
    · exact ⟨List.mem_cons_self, .inl rfl⟩
    · exact (ih h).mono (List.Subset.refl _) (List.subset_cons_self place rest)

/-- Every entry of a row tells of a common block within bounds: where the block ends in the second
list, and how many lines it has. In the first list all of them end before the same line. -/
def Pair.IsRow (pair : Pair) (leftLow leftHigh rightLow rightHigh stop : Nat)
    (row : List (Nat × Nat)) : Prop :=
  ∀ ending ∈ row, ∃ left right, left + ending.2 = stop ∧ right + ending.2 = ending.1 + 1 ∧
    Block.IsCommon pair leftLow leftHigh rightLow rightHigh ⟨left, right, ending.2⟩

theorem Pair.mem_placesIn {line : String} {low high place : Nat}
    (h : place ∈ pair.placesIn line low high) :
    place ∈ pair.places.getD line [] ∧ low ≤ place ∧ place < high := by
  simpa [placesIn] using h

/-- One line more: its row is made of blocks of one line, and of blocks of the row before that
grow by one line. -/
theorem Pair.IsRow.next {row : List (Nat × Nat)} {line : Nat} {text : String}
    (h : pair.IsRow leftLow leftHigh rightLow rightHigh line row) (hindexed : pair.Indexed)
    (hlow : leftLow ≤ line) (hhigh : line < leftHigh) (htext : pair.left[line]? = some text) :
    pair.IsRow leftLow leftHigh rightLow rightHigh (line + 1)
      (nextRow row (pair.placesIn text rightLow rightHigh)) := by
  rintro ⟨place, size⟩ hending
  obtain ⟨hplace, hsize⟩ := goesOn_of_mem_nextRow hending
  obtain ⟨hlisted, hplaceLow, hplaceHigh⟩ := mem_placesIn hplace
  -- The line itself, as a block of its own.
  have hsame : pair.left[line]? = pair.right[place]? := by
    rw [htext, hindexed text place hlisted]
  have hline := Block.IsCommon.one hlow hhigh hplaceLow hplaceHigh hsame
  rcases hsize with hone | ⟨before, count, hmem, heq⟩
  · obtain rfl : size = 1 := hone
    exact ⟨line, place, rfl, rfl, hline⟩
  · obtain ⟨rfl, rfl⟩ := Prod.mk.inj heq
    obtain ⟨left, right, hleft, hright, hblock⟩ := h (before, count) hmem
    dsimp only at hleft hright hblock ⊢
    subst hleft
    rw [← hright] at hline
    exact ⟨left, right, rfl, by omega, hblock.append hline⟩

/-- Of two common blocks the larger is common. -/
theorem Pair.IsRow.foldl_larger {row : List (Nat × Nat)} {line : Nat} {best : Block}
    (h : pair.IsRow leftLow leftHigh rightLow rightHigh (line + 1) row)
    (hbest : best.IsCommon pair leftLow leftHigh rightLow rightHigh) :
    (row.foldl (larger line) best).IsCommon pair leftLow leftHigh rightLow rightHigh := by
  induction row generalizing best with
  | nil => exact hbest
  | cons ending rest ih =>
    refine ih (fun other hother => h other (List.mem_cons_of_mem _ hother)) ?_
    unfold larger
    split
    · obtain ⟨left, right, hleft, hright, hblock⟩ := h ending List.mem_cons_self
      rwa [← hleft, ← hright, Nat.add_sub_cancel, Nat.add_sub_cancel]
    · exact hbest

/-! ## The longest block -/

theorem Pair.isCommon_largestFrom (hindexed : pair.Indexed) {line : Nat} {lines : List String}
    {row : List (Nat × Nat)} {best : Block}
    (hlines : ∀ k (hk : k < lines.length), pair.left[line + k]? = some lines[k])
    (hlow : leftLow ≤ line) (hhigh : line + lines.length ≤ leftHigh)
    (hrow : pair.IsRow leftLow leftHigh rightLow rightHigh line row)
    (hbest : best.IsCommon pair leftLow leftHigh rightLow rightHigh) :
    (pair.largestFrom rightLow rightHigh line lines row best).IsCommon
      pair leftLow leftHigh rightLow rightHigh := by
  induction lines generalizing line row best with
  | nil => exact hbest
  | cons text rest ih =>
    rw [List.length_cons] at hhigh
    have hnext := hrow.next hindexed hlow (by omega) (hlines 0 (by simp))
    refine ih (fun k hk => ?_) (by omega) (by omega) hnext (hnext.foldl_larger hbest)
    have hline := hlines (k + 1) (by simpa using hk)
    rw [List.getElem_cons_succ] at hline
    rwa [Nat.add_assoc, Nat.add_comm 1 k]

/-- The lines shared before two places are a block that ends there. -/
theorem Pair.exists_isCommon_sharedBefore {left right : Nat} (hleft : leftLow ≤ left)
    (hright : rightLow ≤ right) :
    ∃ l r, l + pair.sharedBefore leftLow rightLow left right = left ∧
      r + pair.sharedBefore leftLow rightLow left right = right ∧
      Block.IsCommon pair leftLow left rightLow right
        ⟨l, r, pair.sharedBefore leftLow rightLow left right⟩ := by
  fun_induction sharedBefore pair leftLow rightLow left right with
  | case1 left right hshared ih =>
    obtain ⟨hleftLow, hrightLow, hsame⟩ := hshared
    obtain ⟨l, r, hl, hr, hblock⟩ := ih hleftLow hrightLow
    have hline := Block.IsCommon.one hleftLow (Nat.lt_succ_self left) hrightLow
      (Nat.lt_succ_self right) hsame
    -- The block before ends where this line stands.
    generalize pair.sharedBefore leftLow rightLow left right = count at hl hr hblock
    subst hl hr
    exact ⟨l, r, rfl, rfl, hblock.append hline⟩
  | case2 left right _ =>
    exact ⟨_, _, rfl, rfl, Block.IsCommon.empty hleft (Nat.le_refl _) hright (Nat.le_refl _)⟩
  | case3 left right _ =>
    exact ⟨_, _, rfl, rfl, Block.IsCommon.empty hleft (Nat.le_refl _) hright (Nat.le_refl _)⟩

/-- The lines shared from two places on are a block that starts there. -/
theorem Pair.isCommon_sharedFrom {left right : Nat} (hleft : left ≤ leftHigh)
    (hright : right ≤ rightHigh) :
    Block.IsCommon pair left leftHigh right rightHigh
      ⟨left, right, pair.sharedFrom leftHigh rightHigh left right⟩ := by
  fun_induction sharedFrom pair leftHigh rightHigh left right with
  | case1 left right hshared ih =>
    obtain ⟨hleftHigh, hrightHigh, hsame⟩ := hshared
    have hline := Block.IsCommon.one (Nat.le_refl left) hleftHigh (Nat.le_refl right) hrightHigh
      hsame
    rw [Nat.add_comm]
    exact hline.append (ih hleftHigh hrightHigh)
  | case2 left right _ =>
    exact Block.IsCommon.empty (Nat.le_refl _) hleft (Nat.le_refl _) hright

/-- The block that a search within bounds gives is common and lies within the bounds. -/
theorem Pair.isCommon_longest (hindexed : pair.Indexed) (hleft : leftLow ≤ leftHigh)
    (hright : rightLow ≤ rightHigh) :
    (pair.longest leftLow leftHigh rightLow rightHigh).IsCommon
      pair leftLow leftHigh rightLow rightHigh := by
  have hlines : ∀ k (hk : k < (pair.left.extract leftLow leftHigh).toList.length),
      pair.left[leftLow + k]? = some (pair.left.extract leftLow leftHigh).toList[k] := by
    intro k hk
    simp
  have hbest : (pair.largestFrom rightLow rightHigh leftLow
      (pair.left.extract leftLow leftHigh).toList [] ⟨leftLow, rightLow, 0⟩).IsCommon
        pair leftLow leftHigh rightLow rightHigh :=
    pair.isCommon_largestFrom hindexed hlines (Nat.le_refl leftLow) (by simp; omega) nofun
      (Block.IsCommon.empty (Nat.le_refl _) hleft (Nat.le_refl _) hright)
  unfold longest
  generalize pair.largestFrom rightLow rightHigh leftLow
    (pair.left.extract leftLow leftHigh).toList [] ⟨leftLow, rightLow, 0⟩ = best at hbest
  obtain ⟨left, right, size⟩ := best
  obtain ⟨l, r, hl, hr, hbefore⟩ := pair.exists_isCommon_sharedBefore hbest.left_low hbest.right_low
  have hbehind := pair.isCommon_sharedFrom hbest.left_high hbest.right_high
  dsimp only at hl hr hbefore hbehind ⊢
  -- Three blocks that touch: the lines before, the block found, and the lines behind.
  generalize pair.sharedBefore leftLow rightLow left right = before at hl hr hbefore
  subst hl hr
  rw [Nat.add_sub_cancel, Nat.add_sub_cancel, Nat.add_assoc]
  exact hbefore.append (hbest.append hbehind)

/-! ## All blocks -/

/-- Common blocks within bounds that stand in ascending order in both lists. -/
def Pair.Ascending (pair : Pair) (leftHigh rightHigh : Nat) : Nat → Nat → List Block → Prop
  | leftLow, rightLow, [] => leftLow ≤ leftHigh ∧ rightLow ≤ rightHigh
  | leftLow, rightLow, block :: rest =>
    block.IsCommon pair leftLow leftHigh rightLow rightHigh ∧
      pair.Ascending leftHigh rightHigh (block.left + block.size) (block.right + block.size) rest

/-- Blocks before and behind a block, put together with it. -/
theorem Pair.Ascending.append {first second : List Block} {block : Block}
    (h : pair.Ascending block.left block.right leftLow rightLow first)
    (hblock : block.IsCommon pair leftLow leftHigh rightLow rightHigh)
    (h' : pair.Ascending leftHigh rightHigh (block.left + block.size) (block.right + block.size)
      second) :
    pair.Ascending leftHigh rightHigh leftLow rightLow (first ++ block :: second) := by
  induction first generalizing leftLow rightLow with
  | nil => exact ⟨hblock, h'⟩
  | cons other rest ih =>
    obtain ⟨hother, hrest⟩ := h
    have hbefore := Nat.le_trans (Nat.le_add_right _ _) hblock.left_high
    have hbefore' := Nat.le_trans (Nat.le_add_right _ _) hblock.right_high
    refine ⟨hother.widen hbefore hbefore', ih hrest ?_⟩
    exact ⟨hother.left_high, hblock.left_high, hother.right_high, hblock.right_high, hblock.agree⟩

theorem Pair.ascending_blocksWithin (hindexed : pair.Indexed) (hleft : leftLow ≤ leftHigh)
    (hright : rightLow ≤ rightHigh) :
    pair.Ascending leftHigh rightHigh leftLow rightLow
      (pair.blocksWithin leftLow leftHigh rightLow rightHigh) := by
  fun_induction blocksWithin pair leftLow leftHigh rightLow rightHigh with
  | case1 leftLow leftHigh rightLow rightHigh block _ ihBefore ihBehind =>
    have hblock : block.IsCommon pair leftLow leftHigh rightLow rightHigh :=
      pair.isCommon_longest hindexed hleft hright
    exact (ihBefore hblock.left_low hblock.right_low).append hblock
      (ihBehind hblock.left_high hblock.right_high)
  | case2 => exact ⟨hleft, hright⟩

theorem Pair.Ascending.joinTouching {blocks : List Block}
    (h : pair.Ascending leftHigh rightHigh leftLow rightLow blocks) :
    pair.Ascending leftHigh rightHigh leftLow rightLow (joinTouching blocks) := by
  fun_induction Diff.joinTouching blocks generalizing leftLow rightLow with
  | case1 first second rest htouch ih =>
    obtain ⟨hfirst, hsecond, hrest⟩ := h
    obtain ⟨left, right, size⟩ := second
    obtain ⟨rfl, rfl⟩ : first.left + first.size = left ∧ first.right + first.size = right := htouch
    refine ih ⟨hfirst.append hsecond, ?_⟩
    simpa only [Nat.add_assoc] using hrest
  | case2 first second rest _ ih =>
    obtain ⟨hfirst, hrest⟩ := h
    exact ⟨hfirst, ih hrest⟩
  | case3 blocks _ => exact h

/-- **Common blocks.** The blocks of a comparison are common to both lists, and stand in ascending
order in both. -/
theorem Pair.ascending_commonBlocks (left right : List String) :
    (Pair.ofLists left right).Ascending left.length right.length 0 0 (commonBlocks left right) :=
  (ascending_blocksWithin (indexed_ofLists left right) (Nat.zero_le _)
    (Nat.zero_le _)).joinTouching

end TapeCompiler.Diff
