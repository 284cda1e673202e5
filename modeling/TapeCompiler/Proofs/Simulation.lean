/-
# The machine follows the program

The machine on the text of a program and the run of the program, with loops tested
where they end, go through the same instructions. The zero flag is the difficulty.
A closing bracket jumps by the flag, and the flag speaks of the cell under the
cursor only if the last instruction to set it counted in a cell. A jump may land
where the instruction just before in the text is another one. The flag is right
there all the same, because it was right where the jump was made.
-/

import TapeCompiler.Proofs.Machine
import TapeCompiler.Proofs.ProgramLines

namespace TapeCompiler

open Brackets Assembly

variable {codes : List Instruction} {size q : Nat}

/-! ## Standing at the same place -/

/-- The machine stands where the run of the program stands: on the line of the same instruction,
with the cursor and every cell at the same offset from an origin. -/
structure Mirrors (origin : Int) (s : Machine.State) (t : Tape.State) : Prop where
  line : s.line = 7 + t.position
  cursor : s.cursor = origin + t.cursor
  cells : ∀ i, s.memory (origin + i) = t.cells i

namespace Mirrors

variable {origin : Int} {s : Machine.State} {t : Tape.State}

theorem current (h : Mirrors origin s t) : s.memory s.cursor = t.current := by
  rw [h.cursor, h.cells, Tape.State.current]

theorem goTo (h : Mirrors origin s t) (position : Nat) :
    Mirrors origin (s.goTo (7 + position)) (t.goTo position) :=
  ⟨rfl, h.cursor, h.cells⟩

theorem goOn (h : Mirrors origin s t) :
    Mirrors origin (s.goTo (s.line + 1)) (t.goTo (t.position + 1)) := by
  rw [h.line, Nat.add_assoc]
  exact h.goTo _

theorem put (h : Mirrors origin s t) (value : UInt8) :
    Mirrors origin (s.put value) (t.put value) := by
  refine ⟨?_, h.cursor, ?_⟩
  · simp only [Machine.State.put, Tape.State.put, h.line, Nat.add_assoc]
  · intro i
    simp only [Machine.State.put, Tape.State.put, h.cursor, Function.update_apply, h.cells,
      Int.add_right_inj]

theorem move (h : Mirrors origin s t) {cursor offset : Int} (hcursor : cursor = origin + offset) :
    Mirrors origin (s.move cursor) (t.move offset) := by
  refine ⟨?_, hcursor, h.cells⟩
  simp only [Machine.State.move, Tape.State.move, h.line, Nat.add_assoc]

end Mirrors

/-! ## What the flag tells -/

/-- The last instruction before a position that is no bracket. -/
def lastPlain? (codes : List Instruction) (q : Nat) : Option Instruction :=
  ((codes.take q).filter fun code => ¬ IsBracket code).getLast?

/-- The last instruction before a position that is no bracket counts in a cell. -/
def CellLast (codes : List Instruction) (q : Nat) : Prop :=
  lastPlain? codes q = some .incCell ∨ lastPlain? codes q = some .decCell

instance : Decidable (CellLast codes q) :=
  inferInstanceAs (Decidable
    (lastPlain? codes q = some .incCell ∨ lastPlain? codes q = some .decCell))

/-- Before every closing bracket the last instruction that is no bracket counts in a cell. -/
def TestsCells (codes : List Instruction) : Prop :=
  ∀ q < codes.length, codes[q]? = some .loopEnd → CellLast codes q

instance : DecidablePred TestsCells := fun codes =>
  inferInstanceAs (Decidable (∀ q < codes.length, codes[q]? = some .loopEnd → CellLast codes q))

theorem lastPlain?_succ_of_isBracket {code : Instruction} (h : codes[q]? = some code)
    (hcode : IsBracket code) : lastPlain? codes (q + 1) = lastPlain? codes q := by
  rw [lastPlain?, take_succ_of_getElem? h, List.filter_append]
  simp [hcode, lastPlain?]

theorem lastPlain?_succ_of_not_isBracket {code : Instruction} (h : codes[q]? = some code)
    (hcode : ¬ IsBracket code) : lastPlain? codes (q + 1) = some code := by
  rw [lastPlain?, take_succ_of_getElem? h, List.filter_append]
  simp [hcode]

theorem cellLast_succ_iff_of_isBracket {code : Instruction} (h : codes[q]? = some code)
    (hcode : IsBracket code) : CellLast codes (q + 1) ↔ CellLast codes q := by
  rw [CellLast, CellLast, lastPlain?_succ_of_isBracket h hcode]

/-- What the flag is known to say: where the last instruction that is no bracket counts in a
cell, whether the cell under the cursor is zero. -/
def FlagTells (codes : List Instruction) (s : Machine.State) (t : Tape.State) : Prop :=
  CellLast codes t.position → (s.zero = true ↔ t.current = 0)

/-- The machine stands where the program stands, and its flag tells what it should. -/
def Follows (origin : Int) (codes : List Instruction) (s : Machine.State) (t : Tape.State) :
    Prop :=
  Mirrors origin s t ∧ FlagTells codes s t

namespace Follows

variable {origin : Int} {s : Machine.State} {t : Tape.State}

/-- Counting in the cell under the cursor sets the flag by it. -/
theorem put (h : Follows origin codes s t) (value : UInt8) :
    Follows origin codes (s.put value) (t.put value) := by
  refine ⟨h.1.put value, fun _ => ?_⟩
  simp only [Machine.State.put, Tape.State.put, Tape.State.current, Function.update_self,
    beq_iff_eq]

/-- Behind a count of the cursor the flag need not say anything about a cell. -/
theorem move {code : Instruction} (h : Follows origin codes s t)
    (hcode : codes[t.position]? = some code) (hcursor : code = .incCursor ∨ code = .decCursor)
    {address offset : Int} (haddress : address = origin + offset) :
    Follows origin codes (s.move address) (t.move offset) := by
  refine ⟨h.1.move haddress, fun hlast => ?_⟩
  have hplain : ¬ IsBracket code := by
    rcases hcursor with rfl | rfl <;> decide
  have hsucc := lastPlain?_succ_of_not_isBracket hcode hplain
  simp only [CellLast, Tape.State.move, hsucc] at hlast
  rcases hcursor with rfl | rfl <;> simp at hlast

/-- Passing a bracket changes neither the flag nor what it should tell. -/
theorem goOn {code : Instruction} (h : Follows origin codes s t)
    (hcode : codes[t.position]? = some code) (hbracket : IsBracket code) :
    Follows origin codes (s.goTo (s.line + 1)) (t.goTo (t.position + 1)) := by
  refine ⟨h.1.goOn, fun hlast => ?_⟩
  exact h.2 ((cellLast_succ_iff_of_isBracket hcode hbracket).1 hlast)

/-- A jump is made only when the flag is known, and so it is known where the jump lands, whatever
stands before that place in the program. -/
theorem jump (h : Follows origin codes s t) (hlast : CellLast codes t.position) (p : Nat) :
    Follows origin codes (s.goTo (7 + p)) (t.goTo p) :=
  ⟨h.1.goTo p, fun _ => h.2 hlast⟩

end Follows

/-! ## Steps and runs -/

/-- What the machine does for the instruction at a position, said without the text: a closing
bracket goes by the flag, and the label it names is on the line of its partner. -/
def Machine.State.obey (s : Machine.State) (codes : List Instruction) (q : Nat) :
    Instruction → Option Machine.State
  | .incCell => some (s.put (s.memory s.cursor + 1))
  | .decCell => some (s.put (s.memory s.cursor - 1))
  | .incCursor => some (s.move (s.cursor + 1))
  | .decCursor => some (s.move (s.cursor - 1))
  | .loopStart => some (s.goTo (s.line + 1))
  | .loopEnd =>
    if s.zero then some (s.goTo (s.line + 1))
    else (partner? codes q).map fun p => s.goTo (7 + p)
  | .read | .write => none

theorem step_programLines {s : Machine.State} {code : Instruction} (tape : Int)
    (hsilent : Silent codes) (hbalanced : Balanced codes) (hline : s.line = 7 + q)
    (hcode : codes[q]? = some code) :
    Machine.step tape (programLines size codes) s = s.obey codes q code := by
  have hlt : q < codes.length := (List.getElem?_eq_some_iff.1 hcode).1
  have hat {line : Line} (hblock : blockAt codes q = [line]) :
      (programLines size codes)[s.line]? = some line.text := by
    rw [hline]
    exact getElem?_programLines hsilent hbalanced size hlt hblock
  cases code with
  | incCell | decCell | incCursor | decCursor =>
    -- These lines are fixed, so that reading them back is a computation.
    exact Machine.step_eq_perform (hat (blockAt_of_countingLine? hcode rfl)) rfl
  | loopStart =>
    exact Machine.step_eq_perform (hat (blockAt_loopStart hcode)) (Machine.ofLine?_label _)
  | loopEnd =>
    obtain ⟨p, hpartners⟩ := hbalanced.1.exists_partners hcode
    -- The name in the jump is found on the line of the partner, and on no other.
    have htarget := idxOf?_label hsilent hbalanced size hpartners.opens
    rw [Line.text_label] at htarget
    rw [Machine.step_eq_perform (hat (blockAt_of_partners hpartners)) (Machine.ofLine?_jumpBack _),
      Machine.Operation.perform, htarget, Machine.State.obey, hpartners.partner?_eq]
    rfl
  | read => exact absurd rfl (hsilent _ (List.mem_of_getElem? hcode)).1
  | write => exact absurd rfl (hsilent _ (List.mem_of_getElem? hcode)).2

/-- The machine on the text of a program and the program, with loops tested where
they end, take one step together. -/
theorem step_follows {origin : Int} {s : Machine.State} {t : Tape.State} (tape : Int)
    (hsilent : Silent codes) (hbalanced : Balanced codes) (htests : TestsCells codes)
    (h : Follows origin codes s t) :
    Option.Rel (Follows origin codes) (Machine.step tape (programLines size codes) s)
      (Tape.step .endOnly codes t) := by
  have hlength := length_programLines hsilent hbalanced size
  have hline := h.1.line
  cases hcode : codes[t.position]? with
  | none =>
    have hend : codes.length ≤ t.position := List.getElem?_eq_none_iff.1 hcode
    rw [Machine.step_eq_none_of_end (by omega), Tape.step, hcode]
    exact .none
  | some code =>
    have hlt : t.position < codes.length := (List.getElem?_eq_some_iff.1 hcode).1
    rw [step_programLines tape hsilent hbalanced hline hcode, Tape.step, hcode]
    cases code with
    | incCell | decCell =>
      rw [Machine.State.obey, h.1.current]
      exact .some (h.put _)
    | incCursor =>
      refine .some (h.move hcode (.inl rfl) ?_)
      rw [h.1.cursor, Int.add_assoc]
    | decCursor =>
      refine .some (h.move hcode (.inr rfl) ?_)
      rw [h.1.cursor, Int.add_sub_assoc]
    | loopStart => exact .some (h.goOn hcode (.inl rfl))
    | loopEnd =>
      obtain ⟨p, hpartners⟩ := hbalanced.1.exists_partners hcode
      have hlast := htests _ hlt hcode
      have hflag := h.2 hlast
      -- Both sides test the same thing: the flag speaks of the cell here.
      dsimp only
      rw [Machine.State.obey, hpartners.partner?_eq]
      by_cases hzero : t.current = 0
      · rw [if_pos (hflag.2 hzero), if_pos hzero]
        exact .some (h.goOn hcode (.inr rfl))
      · rw [if_neg (mt hflag.1 hzero), if_neg hzero]
        exact .some (h.jump hlast p)
    | read | write => exact .none

/-- At the first instruction nothing is asked of the flag. -/
theorem Mirrors.follows {origin : Int} {s : Machine.State} {t : Tape.State}
    (h : Mirrors origin s t) (hstart : t.position = 0) : Follows origin codes s t := by
  refine ⟨h, fun hlast => ?_⟩
  rw [hstart] at hlast
  rcases hlast with hnone | hnone <;> cases hnone

/-- From the first instruction on, the machine stands where the program stands after every
number of steps. -/
theorem runFor_mirrors {origin : Int} {s : Machine.State} {t : Tape.State} (tape : Int)
    (hsilent : Silent codes) (hbalanced : Balanced codes) (htests : TestsCells codes)
    (h : Mirrors origin s t) (hstart : t.position = 0) (n : Nat) :
    Option.Rel (Mirrors origin) (runFor (Machine.step tape (programLines size codes)) n s)
      (runFor (Tape.step .endOnly codes) n t) := by
  have hstep : ∀ s t, Follows origin codes s t →
      Option.Rel (Follows origin codes) (Machine.step tape (programLines size codes) s)
        (Tape.step .endOnly codes t) :=
    fun _ _ => step_follows tape hsilent hbalanced htests
  have hrun := runFor_rel hstep n (h.follows hstart)
  generalize runFor (Machine.step tape (programLines size codes)) n s = reached at hrun
  generalize runFor (Tape.step .endOnly codes) n t = reached' at hrun
  cases hrun with
  | none => exact .none
  | some hfollows => exact .some hfollows.1

/-- **Lockstep.** Take a balanced program without input and output in which the last instruction
before each closing bracket, brackets aside, counts in a cell. From the line behind the prologue,
whatever the flag, the cursor and the memory are, the machine on the generated text stands after
every number of steps where the program stands whose loops are tested only at their end, and both
stop together. -/
theorem generate_lockstep {size : Int} (hpos : 1 ≤ size) (hsize : Number.Writable size)
    (hloops : Number.Writable (codes.count .loopStart)) (hbalanced : Balanced codes)
    (hsilent : Silent codes) (htests : TestsCells codes) :
    ∃ text, generate codes (.int size) = .ok text ∧
      ∀ (tape origin : Int) (s : Machine.State) (t : Tape.State), Mirrors origin s t →
        t.position = 0 → ∀ n,
          Option.Rel (Mirrors origin) (runFor (Machine.step tape (linesIn text)) n s)
            (runFor (Tape.step .endOnly codes) n t) := by
  obtain ⟨text, hgenerate, hlines⟩ := exists_generate_eq_ok_linesIn hpos hsize hloops hbalanced
  refine ⟨text, hgenerate, fun tape origin s t hmirrors hstart n => ?_⟩
  rw [hlines]
  exact runFor_mirrors tape hsilent hbalanced htests hmirrors hstart n

/-- Two nested loops, each ended by a count in a cell, from cells that are all five and with the
flag clear. -/
theorem generate_lockstep_nested_loops :
    (1 : Int) ≤ 1024 ∧ Number.Writable 1024 ∧
      Number.Writable ((Instruction.ofText "[[-]+]").count .loopStart) ∧
      Balanced (Instruction.ofText "[[-]+]") ∧ Silent (Instruction.ofText "[[-]+]") ∧
      TestsCells (Instruction.ofText "[[-]+]") ∧
      ∃ text, generate (Instruction.ofText "[[-]+]") (.int 1024) = .ok text ∧ ∀ n,
        Option.Rel (Mirrors 0)
          (runFor (Machine.step 0 (linesIn text)) n ⟨7, 512, false, fun _ => 5⟩)
          (runFor (Tape.step .endOnly (Instruction.ofText "[[-]+]")) n
            ⟨0, 512, fun _ => 5⟩) := by
  have hsize : Number.Writable 1024 := by decide +kernel
  have hloops : Number.Writable ((Instruction.ofText "[[-]+]").count .loopStart) := by
    decide +kernel
  have hbalanced : Balanced (Instruction.ofText "[[-]+]") := by decide
  have hsilent : Silent (Instruction.ofText "[[-]+]") := by decide
  have htests : TestsCells (Instruction.ofText "[[-]+]") := by decide
  obtain ⟨text, hgenerate, hrun⟩ :=
    generate_lockstep (by decide) hsize hloops hbalanced hsilent htests
  exact ⟨by decide, hsize, hloops, hbalanced, hsilent, htests, text, hgenerate,
    hrun 0 0 _ _ ⟨rfl, rfl, fun _ => rfl⟩ rfl⟩

end TapeCompiler
