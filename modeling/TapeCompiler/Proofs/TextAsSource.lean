/-
# Assembly text read as a source

The assembly text of a program is a text, so it can be read as a source in its turn.
Brackets come in pairs within each of its lines, so what is read is always balanced.
A line holds a comma for each reading instruction, and one line of the prologue holds
one more. Hence the text of a program is never a source of that same program.
-/

import TapeCompiler.Proofs.RunCourse
import TapeCompiler.Proofs.WriteFaults

namespace TapeCompiler

open Brackets Assembly

variable {codes : List Instruction} {size : Nat}

namespace Instruction

/-- A numeral holds no instruction. -/
theorem ofText_toString (n : Nat) : ofText (toString n) = [] := by
  rw [ofText, List.filterMap_eq_nil_iff]
  intro c hc
  have hmem : c ∈ Nat.toDigits 10 n := by simpa using hc
  cases hread : ofChar? c with
  | none => rfl
  | some instruction =>
    have hdigit : instruction.char.isDigit = false := by cases instruction <;> rfl
    rw [char_eq_of_ofChar?_eq_some hread] at hdigit
    exact absurd hmem (Number.notMem_toDigits hdigit n)

theorem ofText_textOf_cons (line : Line) (rest : List Line) :
    ofText (textOf (line :: rest)) = ofText line.text ++ ofText (textOf rest) := by
  have hfeed : ofText "\n" = [] := by decide +kernel
  rw [textOf_cons, ofText_append, ofText_append, hfeed, List.append_nil]

end Instruction

open Instruction

/-! ## Brackets -/

/-- The brackets in a line pair up. -/
theorem balanced_ofText_text (line : Line) : Balanced (ofText line.text) := by
  cases line with
  | tape n =>
    rw [show (Line.tape n).text = "  tape RESB " ++ toString n from rfl, ofText_append,
      ofText_toString]
    decide +kernel
  | placeCursor n =>
    rw [Line.text_placeCursor, ofText_append, ofText_toString]
    decide +kernel
  | label n =>
    rw [Line.text_label, nameOf, ofText_append, ofText_append, ofText_toString]
    decide +kernel
  | jumpBack n =>
    rw [Line.text_jumpBack, nameOf, ofText_append, ofText_append, ofText_toString]
    decide +kernel
  | load register => cases register <;> decide +kernel
  | _ => decide +kernel

theorem balanced_ofText_textOf (lines : List Line) : Balanced (ofText (textOf lines)) := by
  induction lines with
  | nil => exact balanced_nil
  | cons line rest ih =>
    rw [ofText_textOf_cons]
    exact (balanced_ofText_text line).append ih

/-! ## Commas -/

/-- The comma of the prologue stands in the line that places the cursor. -/
theorem count_read_prologue_pos (size : Nat) :
    0 < (ofText (textOf (prologue size))).count .read := by
  have hplace : (ofText (Line.placeCursor (size / 2)).text).count .read = 1 := by
    rw [Line.text_placeCursor, ofText_append, ofText_toString]
    decide +kernel
  simp only [prologue, ofText_textOf_cons, List.count_append, hplace]
  omega

theorem count_read_le_blockAt {code : Instruction} {q : Nat} (h : codes[q]? = some code) :
    [code].count .read ≤ (ofText (textOf (blockAt codes q))).count .read := by
  by_cases hread : code = .read
  · subst hread
    rw [blockAt_of_not_isBracket h (by decide)]
    decide +kernel
  · have hnone : [code].count .read = 0 :=
      List.count_eq_zero.2 fun hmem => hread (List.mem_singleton.1 hmem).symm
    omega

/-- The blocks of instructions hold at least as many commas as the instructions do. -/
theorem count_read_le_layout (codes : List Instruction) (m : Nat) :
    (codes.take m).count .read ≤ (ofText (textOf (layout codes m))).count .read := by
  induction m with
  | zero => exact Nat.zero_le _
  | succ m ih =>
    rw [layout_succ, textOf_append, ofText_append, List.count_append]
    cases hcode : codes[m]? with
    | none =>
      have hshort : codes.length ≤ m := List.getElem?_eq_none_iff.1 hcode
      rw [List.take_of_length_le hshort] at ih
      rw [List.take_of_length_le (Nat.le_succ_of_le hshort)]
      omega
    | some code =>
      have hblock := count_read_le_blockAt hcode
      rw [take_succ_of_getElem? hcode, List.count_append]
      omega

theorem ofText_textOf_layout_ne (codes : List Instruction) (size : Nat) :
    ofText (textOf (prologue size ++ layout codes codes.length)) ≠ codes := by
  intro hself
  have hprologue := count_read_prologue_pos size
  have hlayout := count_read_le_layout codes codes.length
  have hcount := congrArg (List.count .read) hself
  rw [List.take_length] at hlayout
  rw [textOf_append, ofText_append, List.count_append] at hcount
  omega

/-- What a run over a program leaves in memory, whether it succeeds or not, is not a source of the
program. -/
theorem ofText_ne_of_text?_leftBy_run {text : String} (hpos : 0 < size)
    (hsize : Number.Writable size) (hloops : Number.Writable (codes.count .loopStart))
    (htext : (Emitter.leftBy (Emitter.run (codes.map .ok) .empty (.ofSize size hpos))).text? =
      some text) : ofText text ≠ codes := by
  intro hself
  rcases run_generates_or_stops hpos hsize hloops with
    ⟨-, finished, generated, hrun, hfinished, hgenerate⟩ |
    ⟨hunbalanced, error, stopped, -, hrun, hstopped, -, -⟩
  · rw [hrun] at htext
    cases hfinished.symm.trans htext
    have hcases := generated_generate (by omega) hsize hloops
    rw [hgenerate] at hcases
    cases hcases with
    | text _ => exact ofText_textOf_layout_ne codes size hself
  · -- A program with brackets that do not pair up cannot be read off a text.
    rw [hrun] at htext
    cases hstopped.symm.trans htext
    exact hunbalanced (hself ▸ balanced_ofText_textOf _)

end TapeCompiler
