/-
# The verdict on a program

Generating either gives a text or finds fault with the brackets, and counting
tells which. A text comes out exactly when the program is balanced. Otherwise the
depth goes below zero somewhere, and the first instruction at which it does is the
one reported; or it never does, and the loops reported as open are as many as the
depth at the end.
-/

import Mathlib.Order.Bounds.Basic
import TapeCompiler.Proofs.Emission

namespace TapeCompiler

open Brackets Assembly

variable {codes : List Instruction} {size : Int} {i : Nat}

namespace Brackets

/-- A closing bracket behind balanced instructions is the first instruction at which the depth
goes below zero. -/
theorem isLeast_depth_neg (hcloses : codes[i]? = some .loopEnd)
    (hbalanced : Balanced (codes.take i)) :
    IsLeast {j : Nat | depth (codes.take (j + 1)) < 0} i := by
  constructor
  · show depth (codes.take (i + 1)) < 0
    rw [depth_take_succ_of_loopEnd hcloses, hbalanced.2]
    decide
  · intro j (hj : depth (codes.take (j + 1)) < 0)
    rcases Nat.lt_or_ge j i with hlt | hge
    · -- A shorter beginning is a beginning of the balanced part.
      have hnonneg := hbalanced.1.depth_take_nonneg (j + 1)
      rw [List.take_take, Nat.min_eq_left (by omega : j + 1 ≤ i)] at hnonneg
      omega
    · exact hge

theorem not_neverBelow_of_isLeast
    (h : IsLeast {j : Nat | depth (codes.take (j + 1)) < 0} i) : ¬ NeverBelow codes := by
  intro hbelow
  have hneg : depth (codes.take (i + 1)) < 0 := h.1
  have hnonneg := hbelow.depth_take_nonneg (i + 1)
  omega

end Brackets

/-! ## Generation case by case -/

/-- Generation is one run of a fresh emitter. -/
theorem generateEvents_eq (events : List Event) (hpos : 0 < size.toNat) :
    generateEvents events (.int size) =
      match Emitter.run events .empty (.ofSize size.toNat hpos) with
      | .ok _ finished => .ok (finished.text?.getD "")
      | .error error _ => .error error := by
  simp only [generateEvents, Emitter.create_int_of_pos hpos, bind, Except.bind]
  cases Emitter.run events .empty (.ofSize size.toNat hpos) <;> rfl

theorem generate_eq (hpos : 0 < size.toNat) :
    generate codes (.int size) =
      match Emitter.run (codes.map .ok) .empty (.ofSize size.toNat hpos) with
      | .ok _ finished => .ok (finished.text?.getD "")
      | .error error _ => .error error := by
  rw [generate, generateEvents_eq _ hpos]

/-- What generation gives, and what the brackets are like in each case. -/
inductive Generated (codes : List Instruction) (size : Int) : Except EmitError String → Prop
  | text (balanced : Balanced codes) :
    Generated codes size (.ok (textOf (prologue size.toNat ++ layout codes codes.length)))
  | unmatched (i : Nat) (closes : codes[i]? = some .loopEnd) (balanced : Balanced (codes.take i)) :
    Generated codes size (.error (.loops (.unmatchedEnd i)))
  | unclosed (positive : 0 < depth codes) (below : NeverBelow codes) :
    Generated codes size (.error (.loops (.unclosed (depth codes))))

theorem generated_generate (hpos : 1 ≤ size) (hsize : Number.Writable size)
    (hloops : Number.Writable (codes.count .loopStart)) :
    Generated codes size (generate codes (.int size)) := by
  have hpos' : 0 < size.toNat := by omega
  have hend : (Emitter.started (.ofSize size.toNat hpos') .empty).Ended codes
      (Emitter.run (codes.map .ok) .empty (.ofSize size.toNat hpos')) :=
    Emitter.ended_run rfl (hsize.toNat hpos) hloops
  rw [generate_eq hpos']
  generalize Emitter.run (codes.map .ok) .empty (.ofSize size.toNat hpos') = result at hend
  cases hend with
  | finished hbalanced =>
    dsimp only
    rw [Emitter.text?_advanced_started, Option.getD_some]
    exact Generated.text hbalanced
  | unclosed p outer hopen =>
    -- As many loops are on the stack as the depth says.
    obtain ⟨hbelow, hdepth⟩ := hopen.neverBelow_and_depth_eq
    rw [← hdepth]
    refine Generated.unclosed ?_ hbelow
    rw [hdepth, List.length_cons]
    omega
  | unmatched i hi hcloses hbalanced => exact Generated.unmatched i hcloses hbalanced

/-! ## The verdict -/

namespace Generated

variable {outcome : Except EmitError String} (h : Generated codes size outcome)
include h

theorem exists_eq_ok_iff : (∃ text, outcome = .ok text) ↔ Balanced codes := by
  cases h with
  | text hbalanced => exact ⟨fun _ => hbalanced, fun _ => ⟨_, rfl⟩⟩
  | unmatched i hcloses hbalanced =>
    have hleast := isLeast_depth_neg hcloses hbalanced
    exact ⟨(fun ⟨_, h⟩ => nomatch h), fun h => absurd h.1 (not_neverBelow_of_isLeast hleast)⟩
  | unclosed hpositive hbelow =>
    exact ⟨(fun ⟨_, h⟩ => nomatch h), fun h => absurd h.2 (by omega)⟩

theorem exists_eq_unmatchedEnd_iff :
    (∃ index, outcome = .error (.loops (.unmatchedEnd index))) ↔ ¬ NeverBelow codes := by
  cases h with
  | text hbalanced => exact ⟨fun ⟨_, h⟩ => (nomatch h), fun h => absurd hbalanced.1 h⟩
  | unmatched i hcloses hbalanced =>
    have hleast := isLeast_depth_neg hcloses hbalanced
    exact ⟨fun _ => not_neverBelow_of_isLeast hleast, fun _ => ⟨i, rfl⟩⟩
  | unclosed hpositive hbelow => exact ⟨fun ⟨_, h⟩ => (nomatch h), fun h => absurd hbelow h⟩

/-- The bracket that is reported is the first one at which the depth goes below zero. -/
theorem isLeast_of_eq_unmatchedEnd {index : Int}
    (heq : outcome = .error (.loops (.unmatchedEnd index))) :
    ∃ i : Nat, index = i ∧ IsLeast {j : Nat | depth (codes.take (j + 1)) < 0} i := by
  cases h with
  | text _ => cases heq
  | unmatched i hcloses hbalanced =>
    simp only [Except.error.injEq, EmitError.loops.injEq, LoopError.unmatchedEnd.injEq] at heq
    exact ⟨i, heq.symm, isLeast_depth_neg hcloses hbalanced⟩
  | unclosed _ _ => cases heq

theorem eq_unclosed_iff (count : Int) :
    outcome = .error (.loops (.unclosed count)) ↔
      NeverBelow codes ∧ 0 < depth codes ∧ count = depth codes := by
  cases h with
  | text hbalanced => exact ⟨nofun, fun ⟨_, h, _⟩ => absurd hbalanced.2 (by omega)⟩
  | unmatched i hcloses hbalanced =>
    have hleast := isLeast_depth_neg hcloses hbalanced
    exact ⟨nofun, fun ⟨h, _⟩ => absurd h (not_neverBelow_of_isLeast hleast)⟩
  | unclosed hpositive hbelow =>
    simp only [Except.error.injEq, EmitError.loops.injEq, LoopError.unclosed.injEq]
    exact ⟨fun h => ⟨hbelow, hpositive, h.symm⟩, fun ⟨_, _, h⟩ => h.symm⟩

/-- Generation fails in no other way than on the brackets. -/
theorem eq_loops_of_eq_error {error : EmitError} (heq : outcome = .error error) :
    (∃ index, error = .loops (.unmatchedEnd index)) ∨
      ∃ count, error = .loops (.unclosed count) := by
  cases h with
  | text _ => cases heq
  | unmatched i _ _ => exact .inl ⟨i, (Except.error.inj heq).symm⟩
  | unclosed _ _ => exact .inr ⟨_, (Except.error.inj heq).symm⟩

end Generated

/-- **The verdict on a program.** For a writable tape size and writable labels, generation gives a
text exactly for a balanced program; it reports a closing bracket exactly when some beginning has
negative depth, and then the first one that makes it so; it reports open loops exactly when no
beginning has negative depth but the whole has positive depth, and then as many as the depth. It
fails in no other way. -/
theorem generate_verdict (hpos : 1 ≤ size) (hsize : Number.Writable size)
    (hloops : Number.Writable (codes.count .loopStart)) :
    ((∃ text, generate codes (.int size) = .ok text) ↔
      (∀ k ≤ codes.length, 0 ≤ depth (codes.take k)) ∧ depth codes = 0) ∧
    ((∃ index, generate codes (.int size) = .error (.loops (.unmatchedEnd index))) ↔
      ∃ k ≤ codes.length, depth (codes.take k) < 0) ∧
    (∀ index, generate codes (.int size) = .error (.loops (.unmatchedEnd index)) →
      ∃ i : Nat, index = i ∧ IsLeast {j : Nat | depth (codes.take (j + 1)) < 0} i) ∧
    ((∃ count, generate codes (.int size) = .error (.loops (.unclosed count))) ↔
      (∀ k ≤ codes.length, 0 ≤ depth (codes.take k)) ∧ 0 < depth codes) ∧
    (∀ count, generate codes (.int size) = .error (.loops (.unclosed count)) →
      count = depth codes) ∧
    ∀ error, generate codes (.int size) = .error error →
      (∃ index, error = .loops (.unmatchedEnd index)) ∨
        ∃ count, error = .loops (.unclosed count) := by
  have hcases := generated_generate hpos hsize hloops
  refine ⟨hcases.exists_eq_ok_iff, ?_, ?_, ?_, ?_, ?_⟩
  · rw [hcases.exists_eq_unmatchedEnd_iff]
    simp only [NeverBelow, not_forall, Int.not_le, exists_prop]
  · intro index h
    exact hcases.isLeast_of_eq_unmatchedEnd h
  · simp only [hcases.eq_unclosed_iff]
    exact ⟨fun ⟨_, hbelow, hpositive, _⟩ => ⟨hbelow, hpositive⟩,
      fun ⟨hbelow, hpositive⟩ => ⟨_, hbelow, hpositive, rfl⟩⟩
  · intro count h
    exact ((hcases.eq_unclosed_iff count).1 h).2.2
  · intro error h
    exact hcases.eq_loops_of_eq_error h

/-- One closing bracket too many, behind a balanced loop and before more instructions. -/
theorem generate_verdict_extra_loopEnd :
    (1 : Int) ≤ 8 ∧ Number.Writable 8 ∧
      Number.Writable ((Instruction.ofText "[]]+").count .loopStart) ∧
      ∃ index, generate (Instruction.ofText "[]]+") (.int 8) =
        .error (.loops (.unmatchedEnd index)) := by
  have hsize : Number.Writable 8 := by decide +kernel
  have hloops : Number.Writable ((Instruction.ofText "[]]+").count .loopStart) := by
    decide +kernel
  exact ⟨by decide, hsize, hloops,
    (generate_verdict (by decide) hsize hloops).2.1.2 ⟨3, by decide, by decide⟩⟩

end TapeCompiler
