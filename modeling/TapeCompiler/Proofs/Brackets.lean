/-
# Brackets and their partners

Whether the brackets of a program pair up is a matter of counting. The depth of a
program is the number of loops it opens less the number it closes. A program is
balanced when no beginning of it has a negative depth and the whole has depth
zero.

A closing bracket and an opening one before it are partners when the
instructions strictly between them are balanced. A beginning that never goes
below depth zero leaves some loops open, and splits at their brackets into
balanced pieces. The list of these brackets, the innermost first, changes by one
entry with each bracket met, which is what lets a one-pass reader keep it.
-/

import TapeCompiler.Instruction

namespace TapeCompiler.Brackets

variable {codes first second inner : List Instruction} {positions outer : List Nat}
variable {p q r : Nat}

/-! ## Depth -/

/-- The loops that instructions open less those that they close. -/
def depth (codes : List Instruction) : Int :=
  codes.count .loopStart - codes.count .loopEnd

@[simp] theorem depth_nil : depth [] = 0 := rfl

@[simp] theorem depth_append (first second : List Instruction) :
    depth (first ++ second) = depth first + depth second := by
  simp only [depth, List.count_append]
  omega

@[simp] theorem depth_loopStart : depth [.loopStart] = 1 := rfl

@[simp] theorem depth_loopEnd : depth [.loopEnd] = -1 := rfl

/-- An instruction that is a bracket. -/
def IsBracket (code : Instruction) : Prop := code = .loopStart ∨ code = .loopEnd

instance : DecidablePred IsBracket := fun code =>
  inferInstanceAs (Decidable (code = .loopStart ∨ code = .loopEnd))

/-- The depth of a beginning of two parts put together. -/
theorem depth_take_append (first second : List Instruction) (k : Nat) :
    depth ((first ++ second).take k) =
      depth (first.take k) + depth (second.take (k - first.length)) := by
  rw [List.take_append, depth_append]

/-! ## Balance -/

/-- No beginning closes more loops than it opens. -/
def NeverBelow (codes : List Instruction) : Prop :=
  ∀ k ≤ codes.length, 0 ≤ depth (codes.take k)

instance : DecidablePred NeverBelow := fun codes =>
  decidable_of_iff (∀ k, k < codes.length + 1 → 0 ≤ depth (codes.take k))
    ⟨fun h k hk => h k (Nat.lt_succ_of_le hk), fun h k hk => h k (Nat.le_of_lt_succ hk)⟩

/-- Every loop that is closed was opened before, and every loop that is opened is closed. -/
def Balanced (codes : List Instruction) : Prop :=
  NeverBelow codes ∧ depth codes = 0

instance : DecidablePred Balanced := fun codes =>
  inferInstanceAs (Decidable (NeverBelow codes ∧ depth codes = 0))

/-- Beginnings longer than the whole add nothing. -/
theorem NeverBelow.depth_take_nonneg (h : NeverBelow codes) (k : Nat) :
    0 ≤ depth (codes.take k) := by
  rcases Nat.le_total k codes.length with hk | hk
  · exact h k hk
  · have whole := h codes.length (Nat.le_refl _)
    rw [List.take_length] at whole
    rwa [List.take_of_length_le hk]

theorem NeverBelow.append (hfirst : NeverBelow first) (hsecond : NeverBelow second) :
    NeverBelow (first ++ second) := by
  intro k _
  rw [depth_take_append]
  have := hfirst.depth_take_nonneg k
  have := hsecond.depth_take_nonneg (k - first.length)
  omega

theorem neverBelow_loopStart : NeverBelow [.loopStart] := by decide

theorem balanced_nil : Balanced [] := by decide

theorem balanced_singleton_of_not_isBracket {code : Instruction} (h : ¬ IsBracket code) :
    Balanced [code] := by
  cases code with
  | loopStart => exact absurd (Or.inl rfl) h
  | loopEnd => exact absurd (Or.inr rfl) h
  | _ => decide

theorem Balanced.append (hfirst : Balanced first) (hsecond : Balanced second) :
    Balanced (first ++ second) := by
  refine ⟨hfirst.1.append hsecond.1, ?_⟩
  rw [depth_append, hfirst.2, hsecond.2, Int.add_zero]

/-- A loop around balanced instructions is balanced. -/
theorem Balanced.loop (h : Balanced inner) :
    Balanced (.loopStart :: inner ++ [.loopEnd]) := by
  have hopened : NeverBelow (.loopStart :: inner) :=
    neverBelow_loopStart.append h.1
  have hdepth : depth (.loopStart :: inner) = 1 := by
    rw [← List.singleton_append, depth_append, depth_loopStart, h.2, Int.add_zero]
  refine ⟨?_, ?_⟩
  · intro k hk
    rw [depth_take_append]
    have hnonneg := hopened.depth_take_nonneg k
    -- Only the last beginning takes the closing bracket, and it has the whole body before it.
    rcases Nat.lt_or_ge (Instruction.loopStart :: inner).length k with hlt | hge
    · rw [List.take_of_length_le (Nat.le_of_lt hlt), hdepth, List.take_of_length_le]
      · decide
      · rw [List.length_singleton]
        omega
    · rw [Nat.sub_eq_zero_of_le hge, List.take_zero, depth_nil, Int.add_zero]
      exact hnonneg
  · rw [depth_append, hdepth, depth_loopEnd]
    rfl

/-! ## Partners -/

/-- The bracket at `p` opens the loop that the bracket at `q` closes: the instructions strictly
between them are balanced. -/
structure Partners (codes : List Instruction) (p q : Nat) : Prop where
  lt : p < q
  opens : codes[p]? = some .loopStart
  closes : codes[q]? = some .loopEnd
  inside : Balanced ((codes.take q).drop (p + 1))

theorem partners_iff : Partners codes p q ↔ p < q ∧ codes[p]? = some .loopStart ∧
    codes[q]? = some .loopEnd ∧ Balanced ((codes.take q).drop (p + 1)) :=
  ⟨fun h => ⟨h.lt, h.opens, h.closes, h.inside⟩, fun ⟨hlt, ho, hc, hi⟩ => ⟨hlt, ho, hc, hi⟩⟩

instance : Decidable (Partners codes p q) := decidable_of_iff' _ partners_iff

/-- A beginning is what stands before its last instruction, and that instruction. -/
theorem take_succ_of_getElem? {code : Instruction} (h : codes[p]? = some code) :
    codes.take (p + 1) = codes.take p ++ [code] := by
  rw [List.take_add_one, h, Option.toList_some]

/-- Instructions are what stands before an opening bracket, the bracket, and the rest. -/
theorem eq_take_append_drop (h : codes[p]? = some .loopStart) :
    codes = codes.take p ++ .loopStart :: codes.drop (p + 1) :=
  calc codes = codes.take (p + 1) ++ codes.drop (p + 1) := (List.take_append_drop _ _).symm
    _ = codes.take p ++ .loopStart :: codes.drop (p + 1) := by
      rw [take_succ_of_getElem? h, List.append_assoc, List.singleton_append]

/-- Of two partners of one closing bracket neither stands before the other: the later would be
opened inside the earlier one's loop and never closed there. -/
theorem Partners.not_lt (h : Partners codes p q) (h' : Partners codes r q) : ¬ p < r := by
  intro hlt
  -- The bracket at `r` stands inside the loop from `p` to `q`, and splits it in two.
  have hopens : ((codes.take q).drop (p + 1))[r - (p + 1)]? = some .loopStart := by
    rw [List.getElem?_drop, List.getElem?_take_of_lt (by have := h'.lt; omega)]
    rw [show p + 1 + (r - (p + 1)) = r by omega]
    exact h'.opens
  have hsplit := eq_take_append_drop hopens
  have hrest : ((codes.take q).drop (p + 1)).drop (r - (p + 1) + 1) =
      (codes.take q).drop (r + 1) := by
    rw [List.drop_drop]
    congr 1
    omega
  -- The second part is balanced, so it does not close what the bracket opens.
  have hdepth := h.inside.2
  have hbefore := h.inside.1.depth_take_nonneg (r - (p + 1))
  rw [hsplit, hrest, depth_append, ← List.singleton_append, depth_append, depth_loopStart,
    h'.inside.2] at hdepth
  omega

/-- A closing bracket has at most one partner. -/
theorem Partners.unique (h : Partners codes p q) (h' : Partners codes r q) : p = r := by
  have := h.not_lt h'
  have := h'.not_lt h
  omega

/-- The partner of a closing bracket, found by trying every position before it. -/
def partner? (codes : List Instruction) (q : Nat) : Option Nat :=
  (List.range q).find? fun p => Partners codes p q

theorem partners_of_partner?_eq_some (h : partner? codes q = some p) : Partners codes p q := by
  have found := List.find?_some h
  exact of_decide_eq_true found

theorem Partners.partner?_eq (h : Partners codes p q) : partner? codes q = some p := by
  cases found : partner? codes q with
  | none =>
    -- The search tries every position before the bracket, so it cannot miss this one.
    have hnone := List.find?_eq_none.1 found p (List.mem_range.2 h.lt)
    exact absurd (decide_eq_true h) hnone
  | some r => rw [h.unique (partners_of_partner?_eq_some found)]

/-- Whether two brackets are partners does not depend on what stands behind them. -/
theorem partners_take_iff {m : Nat} (hq : q < m) :
    Partners (codes.take m) p q ↔ Partners codes p q := by
  have hinside : (codes.take m).take q = codes.take q := by
    rw [List.take_take, Nat.min_eq_left (Nat.le_of_lt hq)]
  rw [partners_iff, partners_iff, hinside, List.getElem?_take_of_lt hq]
  constructor
  · rintro ⟨hlt, hopens, hrest⟩
    rw [List.getElem?_take_of_lt (Nat.lt_trans hlt hq)] at hopens
    exact ⟨hlt, hopens, hrest⟩
  · rintro ⟨hlt, hopens, hrest⟩
    rw [List.getElem?_take_of_lt (Nat.lt_trans hlt hq)]
    exact ⟨hlt, hopens, hrest⟩

/-! ## Open loops -/

/-- The loops still open behind the instructions are those whose brackets stand at the
positions, the innermost first: what stands before, between and behind these brackets is
balanced. -/
def OpenAt (codes : List Instruction) : List Nat → Prop
  | [] => Balanced codes
  | p :: outer =>
    codes[p]? = some .loopStart ∧ Balanced (codes.drop (p + 1)) ∧ OpenAt (codes.take p) outer

theorem openAt_nil : OpenAt [] [] := balanced_nil

/-- Balanced instructions leave the open loops as they are. -/
theorem OpenAt.append (h : OpenAt first positions) (hsecond : Balanced second) :
    OpenAt (first ++ second) positions := by
  cases positions with
  | nil => exact Balanced.append h hsecond
  | cons p outer =>
    obtain ⟨hopens, hinside, houter⟩ := h
    -- The innermost bracket stands in the first part, so only the piece behind it grows.
    have hp : p < first.length := (List.getElem?_eq_some_iff.1 hopens).1
    refine ⟨?_, ?_, ?_⟩
    · rw [List.getElem?_append_left hp]
      exact hopens
    · rw [List.drop_append_of_le_length hp]
      exact hinside.append hsecond
    · rw [List.take_append_of_le_length (Nat.le_of_lt hp)]
      exact houter

/-- An opening bracket adds itself as the innermost open loop. -/
theorem OpenAt.push (h : OpenAt codes positions) :
    OpenAt (codes ++ [.loopStart]) (codes.length :: positions) := by
  refine ⟨?_, ?_, ?_⟩
  · rw [List.getElem?_append_right (Nat.le_refl _), Nat.sub_self]
    rfl
  · rw [List.drop_of_length_le (by simp)]
    exact balanced_nil
  · rw [List.take_append_of_le_length (Nat.le_refl _), List.take_length]
    exact h

/-- A closing bracket takes the innermost open loop away. -/
theorem OpenAt.pop (h : OpenAt codes (p :: outer)) : OpenAt (codes ++ [.loopEnd]) outer := by
  obtain ⟨hopens, hinside, houter⟩ := h
  -- The loop just closed is balanced as a whole and joins the piece before it.
  rw [eq_take_append_drop hopens, List.append_assoc]
  exact houter.append hinside.loop

/-- The bracket of the innermost open loop is the partner of a closing bracket that follows. -/
theorem OpenAt.partners (h : OpenAt (codes.take q) (p :: outer))
    (hq : codes[q]? = some .loopEnd) : Partners codes p q := by
  obtain ⟨hopens, hinside, -⟩ := h
  have hp : p < q := by
    have := (List.getElem?_eq_some_iff.1 hopens).1
    rw [List.length_take] at this
    omega
  refine ⟨hp, ?_, hq, hinside⟩
  rwa [List.getElem?_take_of_lt hp] at hopens

/-- As many loops are open as the depth says, and the depth was never negative. -/
theorem OpenAt.neverBelow_and_depth_eq (h : OpenAt codes positions) :
    NeverBelow codes ∧ depth codes = positions.length := by
  -- The induction goes outwards: each bracket adds one to the depth of what stands before it.
  induction positions generalizing codes with
  | nil => exact h
  | cons p outer ih =>
    obtain ⟨hopens, hinside, houter⟩ := h
    obtain ⟨hbelow, hdepth⟩ := ih houter
    rw [eq_take_append_drop hopens, ← List.singleton_append]
    refine ⟨hbelow.append (neverBelow_loopStart.append hinside.1), ?_⟩
    rw [depth_append, depth_append, hdepth, depth_loopStart, hinside.2, List.length_cons]
    omega

/-- Behind a closing bracket the depth is one less than before it. -/
theorem depth_take_succ_of_loopEnd (h : codes[q]? = some .loopEnd) :
    depth (codes.take (q + 1)) = depth (codes.take q) - 1 := by
  rw [take_succ_of_getElem? h, depth_append, depth_loopEnd]
  rfl

/-- Where the depth is never negative, the open loops have brackets. -/
theorem NeverBelow.exists_openAt_take (h : NeverBelow codes) {m : Nat} (hm : m ≤ codes.length) :
    ∃ positions, OpenAt (codes.take m) positions := by
  induction m with
  | zero => exact ⟨[], openAt_nil⟩
  | succ m ih =>
    obtain ⟨positions, hopen⟩ := ih (Nat.le_of_succ_le hm)
    have hcode : codes[m]? = some codes[m] := List.getElem?_eq_getElem hm
    rw [take_succ_of_getElem? hcode]
    by_cases hbracket : IsBracket codes[m]
    · rcases hbracket with heq | heq
      · rw [heq]
        exact ⟨_, hopen.push⟩
      · cases positions with
        | nil =>
          -- With no loop open a closing bracket would take the depth below zero.
          have hnonneg := h (m + 1) hm
          rw [depth_take_succ_of_loopEnd (hcode.trans (congrArg some heq)), hopen.2] at hnonneg
          omega
        | cons p outer =>
          rw [heq]
          exact ⟨outer, hopen.pop⟩
    · exact ⟨positions, hopen.append (balanced_singleton_of_not_isBracket hbracket)⟩

/-- Where the depth is never negative, every closing bracket has a partner. -/
theorem NeverBelow.exists_partners (h : NeverBelow codes) (hq : codes[q]? = some .loopEnd) :
    ∃ p, Partners codes p q := by
  have hlt : q < codes.length := (List.getElem?_eq_some_iff.1 hq).1
  obtain ⟨positions, hopen⟩ := h.exists_openAt_take (Nat.le_of_lt hlt)
  cases positions with
  | nil =>
    have hnonneg := h (q + 1) hlt
    rw [depth_take_succ_of_loopEnd hq, hopen.2] at hnonneg
    omega
  | cons p outer => exact ⟨p, hopen.partners hq⟩

end TapeCompiler.Brackets
