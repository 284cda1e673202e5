/-
# When the text means the program

A translation should mean its program: if the program halts from a tape of zeros,
so should its text from zeroed memory, with the same cells and the cursor at the
same offset. The generated text does not always do so. It never looks at the cell
where a loop starts, so a loop that the language skips is run once; and a closing
bracket behind a move of the cursor goes by the address instead of the cell.

Where neither happens the text means the program: each loop that the run meets is
entered, and before each closing bracket the last instruction that is no bracket
counts in a cell. Neither condition can be left out.
-/

import TapeCompiler.Proofs.Simulation

namespace TapeCompiler

open Brackets Assembly

variable {codes : List Instruction}

/-- If the program halts from a tape of zeros, then its text does from zeroed memory, wherever
the tape lies and whatever the flag and the cursor were, with the same cells and the cursor at the
same offset from the middle of the tape. -/
def PreservesMeaning (codes : List Instruction) (size : Int) : Prop :=
  ∀ final, Tape.Halts .startAndEnd codes .blank final →
    ∃ text, generate codes (.int size) = .ok text ∧
      ∀ (tape : Int) (start : Machine.State), start.line = Machine.firstLine (linesIn text) →
        (∀ address, start.memory address = 0) →
        ∃ stop, Machine.Halts tape (linesIn text) start stop ∧
          stop.cursor = tape + size / 2 + final.cursor ∧
          ∀ i, stop.memory (tape + size / 2 + i) = final.cells i

/-- The run of the program from a tape of zeros meets no loop on a cell that is zero. -/
def EntersLoops (codes : List Instruction) : Prop :=
  ∀ n t, runFor (Tape.step .startAndEnd codes) n .blank = some t →
    codes[t.position]? = some .loopStart → t.current ≠ 0

/-- For a run that stops, the loops it meets can be looked through one by one. -/
theorem entersLoops_of_stops {k : Nat}
    (hstop : (runFor (Tape.step .startAndEnd codes) k .blank).isNone)
    (hloops : ∀ n < k, (runFor (Tape.step .startAndEnd codes) n .blank).map
      (fun t => (codes[t.position]?, t.current)) ≠ some (some .loopStart, 0)) :
    EntersLoops codes := by
  intro n t hrun hcode hzero
  rcases Nat.lt_or_ge n k with hlt | hge
  · -- The state is one of those that were looked through.
    apply hloops n hlt
    rw [hrun, Option.map_some, hcode, hzero]
  · rw [runFor_eq_none_of_le (Option.isNone_iff_eq_none.1 hstop) hge] at hrun
    cases hrun

/-! ## From the entry point -/

theorem firstLine_programLines (size : Nat) (codes : List Instruction) :
    Machine.firstLine (programLines size codes) = 6 := by
  have hprologue : (prologue size).map Line.text =
      ["section .bss", "  tape_ptr RESQ 1", "  tape RESB " ++ toString size, "section .text",
        "  global _start", "_start:", "  mov EAX, tape+" ++ toString (size / 2)] := rfl
  have htape : ("  tape RESB " ++ size.repr == "_start:") = false := by
    simp [← String.toList_inj]
  rw [Machine.firstLine, programLines, List.map_append, hprologue]
  simp [List.idxOf_cons, htape]

/-- The first line places the cursor in the middle of the tape. -/
theorem step_placeCursor (size : Nat) (codes : List Instruction) (tape : Int) {s : Machine.State}
    (hline : s.line = 6) :
    Machine.step tape (programLines size codes) s = some (s.place (tape + (size / 2 : Nat))) := by
  have hat : (programLines size codes)[s.line]? = some (Line.placeCursor (size / 2)).text := by
    rw [hline]
    rfl
  rw [Machine.step_eq_perform hat (Machine.ofLine?_placeCursor _)]
  rfl

/-- Where the program halts with its loops tested only at their end, the text halts. -/
theorem exists_halts_mirrors (size : Nat) (tape : Int) {start : Machine.State}
    {final : Tape.State} (hsilent : Silent codes) (hbalanced : Balanced codes)
    (htests : TestsCells codes) (hline : start.line = Machine.firstLine (programLines size codes))
    (hmemory : ∀ address, start.memory address = 0)
    (h : Tape.Halts .endOnly codes .blank final) :
    ∃ stop, Machine.Halts tape (programLines size codes) start stop ∧
      Mirrors (tape + (size / 2 : Nat)) stop final := by
  obtain ⟨n, hrun, hend⟩ := h
  rw [firstLine_programLines] at hline
  -- One step places the cursor; from there on the machine and the program go together.
  have hplaced : Mirrors (tape + (size / 2 : Nat)) (start.place (tape + (size / 2 : Nat))) .blank :=
    ⟨congrArg (· + 1) hline, (Int.add_zero _).symm, fun _ => hmemory _⟩
  have hfollows : Option.Rel (Mirrors (tape + (size / 2 : Nat)))
      (runFor (Machine.step tape (programLines size codes)) n
        (start.place (tape + (size / 2 : Nat)))) (some final) :=
    hrun ▸ runFor_mirrors tape hsilent hbalanced htests hplaced rfl n
  generalize hreached : runFor (Machine.step tape (programLines size codes)) n
    (start.place (tape + (size / 2 : Nat))) = reached at hfollows
  cases hfollows with
  | some hmirrors =>
    refine ⟨_, ⟨n + 1, ?_, ?_⟩, hmirrors⟩
    · rw [runFor_succ, step_placeCursor size codes tape hline, Option.bind_some]
      exact hreached
    · rw [length_programLines hsilent hbalanced, hmirrors.line, hend]

/-! ## The law -/

/-- **Meaning is preserved where loops are entered.** Take a balanced program without input and
output in which the last instruction before each closing bracket, brackets aside, counts in a
cell. If its run from a tape of zeros meets no loop on a cell that is zero, then its text means the
program. -/
theorem preservesMeaning_of_entersLoops {size : Int} (hpos : 1 ≤ size)
    (hsize : Number.Writable size) (hloops : Number.Writable (codes.count .loopStart))
    (hbalanced : Balanced codes) (hsilent : Silent codes) (htests : TestsCells codes)
    (henters : EntersLoops codes) : PreservesMeaning codes size := by
  rintro final ⟨n, hrun, hend⟩
  -- No loop is skipped, so testing loops only at their end gives the same run.
  have hsame := runFor_congr
    (fun k t hk => Tape.step_startAndEnd_eq fun hcode => henters k t hk hcode) n
  obtain ⟨text, hgenerate, hlines⟩ := exists_generate_eq_ok_linesIn hpos hsize hloops hbalanced
  refine ⟨text, hgenerate, fun tape start hline hmemory => ?_⟩
  rw [hlines] at hline ⊢
  obtain ⟨stop, hhalts, hmirrors⟩ := exists_halts_mirrors size.toNat tape hsilent hbalanced htests
    hline hmemory ⟨n, hsame ▸ hrun, hend⟩
  have hmiddle : ((size.toNat / 2 : Nat) : Int) = size / 2 := by omega
  rw [hmiddle] at hmirrors
  exact ⟨stop, hhalts, hmirrors.cursor, hmirrors.cells⟩

/-- A loop inside a loop, both entered each time they are met, and a run that halts. -/
theorem preservesMeaning_of_entersLoops_nested :
    (1 : Int) ≤ 8 ∧ Number.Writable 8 ∧
      Number.Writable ((Instruction.ofText "++[>+[-]<-]").count .loopStart) ∧
      Balanced (Instruction.ofText "++[>+[-]<-]") ∧ Silent (Instruction.ofText "++[>+[-]<-]") ∧
      TestsCells (Instruction.ofText "++[>+[-]<-]") ∧
      EntersLoops (Instruction.ofText "++[>+[-]<-]") ∧
      (∃ final, Tape.Halts .startAndEnd (Instruction.ofText "++[>+[-]<-]") .blank final) ∧
      PreservesMeaning (Instruction.ofText "++[>+[-]<-]") 8 := by
  have hsize : Number.Writable 8 := by decide +kernel
  have hloops : Number.Writable ((Instruction.ofText "++[>+[-]<-]").count .loopStart) := by
    decide +kernel
  have hbalanced : Balanced (Instruction.ofText "++[>+[-]<-]") := by decide
  have hsilent : Silent (Instruction.ofText "++[>+[-]<-]") := by decide
  have htests : TestsCells (Instruction.ofText "++[>+[-]<-]") := by decide
  have henters : EntersLoops (Instruction.ofText "++[>+[-]<-]") :=
    entersLoops_of_stops (k := 21) (by decide +kernel) (by decide +kernel)
  exact ⟨by decide, hsize, hloops, hbalanced, hsilent, htests, henters, ⟨_, 20, rfl, rfl⟩,
    preservesMeaning_of_entersLoops (by decide) hsize hloops hbalanced hsilent htests henters⟩

/-! ## Where meaning is lost -/

/-- The machine is still to place the cursor; or it has not come past a position, the cursor is at
no negative address, and if the machine stands at the position its flag is clear. -/
def HeldAt (q : Nat) (s : Machine.State) : Prop :=
  s.line = 6 ∨ ∃ r ≤ q, s.line = 7 + r ∧ 0 ≤ s.cursor ∧ (r = q → s.zero = false)

section Held

variable {size q : Nat} {tape : Int} (hsilent : Silent codes) (hbalanced : Balanced codes)
variable (hright : .decCursor ∉ codes) (hmove : codes[q]? = some .incCursor)
variable (hcloses : codes[q + 1]? = some .loopEnd) (htape : 0 ≤ tape)
include hsilent hbalanced hright hmove hcloses htape

/-- Where the cursor only moves to the right, no step gets past a closing bracket behind a
move. -/
theorem heldAt_step {s next : Machine.State} (h : HeldAt (q + 1) s)
    (hstep : Machine.step tape (programLines size codes) s = some next) :
    HeldAt (q + 1) next := by
  rcases h with hline | ⟨r, hr, hline, hcursor, hflag⟩
  · rw [step_placeCursor size codes tape hline] at hstep
    obtain rfl := Option.some.inj hstep
    refine .inr ⟨0, Nat.zero_le _, congrArg (· + 1) hline, ?_, by omega⟩
    exact Int.add_nonneg htape (Int.natCast_nonneg _)
  · have hlt : r < codes.length := Nat.lt_of_le_of_lt hr (List.getElem?_eq_some_iff.1 hcloses).1
    have hcode : codes[r]? = some codes[r] := List.getElem?_eq_getElem hlt
    generalize codes[r] = code at hcode
    -- Only the move leads to the bracket, and only a set flag leads on from it.
    have hbefore (hplain : code ≠ .incCursor) (hend : code = .loopEnd → s.zero = true) :
        r < q := by
      have hne : r ≠ q := by
        rintro rfl
        exact hplain (Option.some.inj (hcode.symm.trans hmove))
      have hne' : r ≠ q + 1 := by
        rintro rfl
        have hset := hend (Option.some.inj (hcode.symm.trans hcloses))
        rw [hflag rfl] at hset
        cases hset
      omega
    have hon : s.line + 1 = 7 + (r + 1) := by omega
    rw [step_programLines tape hsilent hbalanced hline hcode] at hstep
    cases code with
    | incCell | decCell | loopStart =>
      have := hbefore (by decide) (by simp)
      obtain rfl := Option.some.inj hstep
      exact .inr ⟨r + 1, by omega, hon, hcursor, by omega⟩
    | incCursor =>
      have hne : r ≠ q + 1 := by
        rintro rfl
        cases hcode.symm.trans hcloses
      obtain rfl := Option.some.inj hstep
      refine .inr ⟨r + 1, by omega, hon, ?_, fun _ => beq_eq_false_iff_ne.2 ?_⟩
      · exact Int.add_nonneg hcursor (by decide)
      · omega
    | decCursor => exact absurd (List.mem_of_getElem? hcode) hright
    | loopEnd =>
      rw [Machine.State.obey] at hstep
      split at hstep
      · next hset =>
        have := hbefore (by decide) fun _ => hset
        obtain rfl := Option.some.inj hstep
        exact .inr ⟨r + 1, by omega, hon, hcursor, by omega⟩
      · obtain ⟨p, hp, rfl⟩ := Option.map_eq_some_iff.1 hstep
        have hlt := (partners_of_partner?_eq_some hp).lt
        exact .inr ⟨p, by omega, rfl, hcursor, by omega⟩
    | read | write => cases hstep

/-- A program whose cursor only moves to the right, and in which some loop ends in such a move,
gives a text that runs for ever. -/
theorem not_halts_of_loop_ends_in_move {start stop : Machine.State} (hline : start.line = 6) :
    ¬ Machine.Halts tape (programLines size codes) start stop := by
  rintro ⟨n, hrun, hend⟩
  have hheld : HeldAt (q + 1) stop := runFor_invariant
    (fun _ _ => heldAt_step hsilent hbalanced hright hmove hcloses htape) (.inl hline) hrun
  have hlt : q + 1 < codes.length := (List.getElem?_eq_some_iff.1 hcloses).1
  rw [length_programLines hsilent hbalanced] at hend
  rcases hheld with hstop | ⟨r, hr, hstop, -⟩ <;> omega

end Held

/-- What the law says of the machine on the lines of a program. -/
theorem PreservesMeaning.exists_halts {size : Int} (hpos : 1 ≤ size)
    (hsize : Number.Writable size) (hloops : Number.Writable (codes.count .loopStart))
    (hbalanced : Balanced codes)
    (h : PreservesMeaning codes size) {final : Tape.State}
    (hfinal : Tape.Halts .startAndEnd codes .blank final) (tape : Int) {start : Machine.State}
    (hline : start.line = 6) (hmemory : ∀ address, start.memory address = 0) :
    ∃ stop, Machine.Halts tape (programLines size.toNat codes) start stop ∧
      stop.cursor = tape + size / 2 + final.cursor := by
  obtain ⟨text, hgenerate, hruns⟩ := h final hfinal
  obtain ⟨text', hgenerate', hlines⟩ := exists_generate_eq_ok_linesIn hpos hsize hloops hbalanced
  obtain rfl : text = text' := Except.ok.inj (hgenerate.symm.trans hgenerate')
  rw [hlines, firstLine_programLines] at hruns
  obtain ⟨stop, hhalts, hcursor, -⟩ := hruns tape start hline hmemory
  exact ⟨stop, hhalts, hcursor⟩

/-- The start of a loop on a zero cell is not tested: `[>+-]` is skipped by the language, and its
text moves the cursor. -/
theorem not_preservesMeaning_skipped_loop :
    ¬ PreservesMeaning (Instruction.ofText "[>+-]") 8 := by
  intro hmeaning
  have hbalanced : Balanced (Instruction.ofText "[>+-]") := by decide
  have hskipped : Tape.Halts .startAndEnd (Instruction.ofText "[>+-]") .blank
      (Tape.State.blank.goTo 5) := ⟨1, rfl, rfl⟩
  have hentered : Tape.Halts .endOnly (Instruction.ofText "[>+-]") .blank
      ⟨5, 1, Function.update (Function.update (fun _ => 0) 1 1) 1 0⟩ := ⟨5, rfl, rfl⟩
  have hzeroed (address : Int) : (Machine.State.mk 6 0 false fun _ => 0).memory address = 0 := rfl
  obtain ⟨stop, hhalts, hcursor⟩ := hmeaning.exists_halts (by decide)
    (by decide +kernel)
    (by decide +kernel) hbalanced hskipped 0 rfl hzeroed
  obtain ⟨stop', hhalts', hmirrors⟩ := exists_halts_mirrors 8 0 (by decide) hbalanced (by decide)
    (firstLine_programLines 8 (Instruction.ofText "[>+-]")).symm hzeroed hentered
  -- The text halts with the cursor one cell up, the language with the cursor where it was.
  obtain rfl := hhalts.unique hhalts'
  have hmoved := hmirrors.cursor
  rw [hcursor] at hmoved
  revert hmoved
  decide

/-- A closing bracket behind a move goes by the address: the language leaves the loop of `+[>]` on
the first cell that is zero, and its text never leaves it. -/
theorem not_preservesMeaning_moved_cursor :
    ¬ PreservesMeaning (Instruction.ofText "+[>]") 8 := by
  intro hmeaning
  have hbalanced : Balanced (Instruction.ofText "+[>]") := by decide
  have hleft : Tape.Halts .startAndEnd (Instruction.ofText "+[>]") .blank
      ⟨4, 1, Function.update (fun _ => 0) 0 1⟩ := ⟨4, rfl, rfl⟩
  obtain ⟨stop, hhalts, -⟩ := hmeaning.exists_halts (by decide)
    (by decide +kernel)
    (by decide +kernel) hbalanced hleft 0
    (rfl : (Machine.State.mk 6 0 false fun _ => 0).line = 6) fun _ => rfl
  exact not_halts_of_loop_ends_in_move (q := 2) (by decide) hbalanced (by decide) rfl rfl
    (Int.le_refl 0) rfl hhalts

/-- **Meaning is not always preserved.** Neither condition of the law can be left out: there is a
program with cell tests that skips a loop, and one that enters its loop and has a move before the
end of it, and the text of neither means the program. -/
theorem meaning_lost_without_entry_or_cell_test :
    (1 : Int) ≤ 8 ∧ Number.Writable 8 ∧
      (Number.Writable ((Instruction.ofText "[>+-]").count .loopStart) ∧
        Balanced (Instruction.ofText "[>+-]") ∧ Silent (Instruction.ofText "[>+-]") ∧
        TestsCells (Instruction.ofText "[>+-]") ∧
        ¬ PreservesMeaning (Instruction.ofText "[>+-]") 8) ∧
      Number.Writable ((Instruction.ofText "+[>]").count .loopStart) ∧
        Balanced (Instruction.ofText "+[>]") ∧ Silent (Instruction.ofText "+[>]") ∧
        EntersLoops (Instruction.ofText "+[>]") ∧
        ¬ PreservesMeaning (Instruction.ofText "+[>]") 8 := by
  refine ⟨by decide, by decide +kernel,
    ⟨by decide +kernel, by decide, by decide, by decide,
      not_preservesMeaning_skipped_loop⟩,
    by decide +kernel, by decide, by decide, ?_,
    not_preservesMeaning_moved_cursor⟩
  exact entersLoops_of_stops (k := 5) (by decide +kernel) (by decide +kernel)

end TapeCompiler
