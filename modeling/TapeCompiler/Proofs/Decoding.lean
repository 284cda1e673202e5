/-
# Reading a program back from its text

The text that a run leaves tells which size it was for and which instructions were
taken, also when the run stopped short. The size stands on the third line. Behind
the prologue every block begins with a line that begins no other block and occurs
inside none, so the instructions can be told from the lines alone. Label numbers
are not needed for that.
-/

import TapeCompiler.Proofs.Acceptance
import TapeCompiler.Proofs.Machine

namespace TapeCompiler

open Brackets

namespace Assembly

open Machine (behind? behind?_append cellOf? cellOf?_toString)

variable {codes : List Instruction} {code : Instruction} {m q size : Nat}

/-- The line that a fixed block begins with. -/
def firstLine? (code : Instruction) : Option String := (simpleBlock code).head?.map Line.text

/-- The instruction whose block begins with a line of text. -/
def instructionOf? (line : String) : Option Instruction :=
  match Instruction.all.find? fun code => firstLine? code == some line with
  | some code => some code
  | none =>
    if (behind? "label_" line).isSome then some .loopStart
    else if (behind? jumpText line).isSome then some .loopEnd
    else none

/-- The size on the line that makes room for the tape. -/
def sizeOf? (line : String) : Option Nat := (behind? "  tape RESB " line).bind cellOf?

/-- The size and the instructions that a text was made from. -/
def decode (text : String) : Option (Nat × List Instruction) := do
  let lines := linesIn text
  let size ← lines[2]?.bind sizeOf?
  return (size, (lines.drop 7).filterMap instructionOf?)

/-! ## Lines -/

/-- A line that begins no fixed block is told by its beginning. -/
theorem instructionOf?_of_ne {line : String} (h : ∀ code, firstLine? code ≠ some line) :
    instructionOf? line =
      if (behind? "label_" line).isSome then some .loopStart
      else if (behind? jumpText line).isSome then some .loopEnd
      else none := by
  have hnone : (Instruction.all.find? fun code => firstLine? code == some line) = none :=
    List.find?_eq_none.2 fun code _ => by simpa using h code
  rw [instructionOf?, hnone]

/-- The first line of a fixed block begins with a blank, unlike a label, and goes on unlike a
jump. -/
theorem chars_of_firstLine?_eq_some {line : String} (h : firstLine? code = some line) :
    line.toList[0]? = some ' ' ∧ line.toList[2]? ≠ some 'j' := by
  have hall : ∀ code ∈ Instruction.all, ∀ line ∈ firstLine? code,
      line.toList[0]? = some ' ' ∧ line.toList[2]? ≠ some 'j' := by decide +kernel
  exact hall code (Instruction.mem_all code) line h

theorem instructionOf?_label (id : Nat) :
    instructionOf? (Line.label id).text = some .loopStart := by
  rw [instructionOf?_of_ne]
  · rw [Line.text_label, nameOf, String.append_assoc, behind?_append]
    rfl
  · intro code h
    have hblank := (chars_of_firstLine?_eq_some h).1
    simp [Line.text_label, nameOf] at hblank

theorem instructionOf?_jumpBack (id : Nat) :
    instructionOf? (Line.jumpBack id).text = some .loopEnd := by
  rw [instructionOf?_of_ne]
  · have hlabel : behind? "label_" (Line.jumpBack id).text = none := by
      simp [behind?, Line.text_jumpBack, jumpText, List.isPrefixOf?]
    rw [hlabel, Line.text_jumpBack, behind?_append]
    rfl
  · intro code h
    have hjump := (chars_of_firstLine?_eq_some h).2
    simp [Line.text_jumpBack, jumpText] at hjump

theorem sizeOf?_tape (cells : Nat) : sizeOf? (Line.tape cells).text = some cells := by
  have htext : (Line.tape cells).text = "  tape RESB " ++ toString cells := rfl
  rw [sizeOf?, htext, behind?_append, Option.bind_some, cellOf?_toString]

/-! ## Blocks -/

/-- The instructions told by some lines. -/
def instructionsOf (lines : List Line) : List Instruction :=
  lines.filterMap fun line => instructionOf? line.text

theorem instructionsOf_append (first second : List Line) :
    instructionsOf (first ++ second) = instructionsOf first ++ instructionsOf second :=
  List.filterMap_append

/-- A fixed block tells its instruction, and tells it once. -/
theorem instructionsOf_simpleBlock (hcode : ¬ IsBracket code) :
    instructionsOf (simpleBlock code) = [code] := by
  cases code with
  | loopStart => exact absurd (Or.inl rfl) hcode
  | loopEnd => exact absurd (Or.inr rfl) hcode
  | _ => decide +kernel

/-- The block at a position tells the instruction there, if a closing bracket has a partner. -/
theorem instructionsOf_blockAt (hcode : codes[q]? = some code)
    (hpartner : code = .loopEnd → ∃ p, Partners codes p q) :
    instructionsOf (blockAt codes q) = [code] := by
  by_cases hbracket : IsBracket code
  · rcases hbracket with rfl | rfl
    · rw [blockAt_loopStart hcode, instructionsOf, List.filterMap_cons, instructionOf?_label]
      rfl
    · obtain ⟨p, hpartners⟩ := hpartner rfl
      rw [blockAt_of_partners hpartners, instructionsOf, List.filterMap_cons,
        instructionOf?_jumpBack]
      rfl
  · rw [blockAt_of_not_isBracket hcode hbracket, instructionsOf_simpleBlock hbracket]

/-- The blocks of the first instructions tell these instructions. -/
theorem instructionsOf_layout (hm : m ≤ codes.length) (hbelow : NeverBelow (codes.take m)) :
    instructionsOf (layout codes m) = codes.take m := by
  have hpartner (q : Nat) (hq : q < m) (hcloses : codes[q]? = some .loopEnd) :
      ∃ p, Partners codes p q := by
    have htake : (codes.take m)[q]? = some .loopEnd := by
      rw [List.getElem?_take_of_lt hq]
      exact hcloses
    obtain ⟨p, hpartners⟩ := hbelow.exists_partners htake
    exact ⟨p, (partners_take_iff hq).1 hpartners⟩
  clear hbelow
  induction m with
  | zero => rfl
  | succ m ih =>
    have hcode : codes[m]? = some codes[m] := List.getElem?_eq_getElem hm
    have hbefore := ih (Nat.le_of_succ_le hm) fun q hq => hpartner q (Nat.lt_succ_of_lt hq)
    have hblock := instructionsOf_blockAt hcode fun hend =>
      hpartner m (Nat.lt_succ_self m) (hcode.trans (congrArg some hend))
    rw [layout_succ, instructionsOf_append, hbefore, hblock, ← take_succ_of_getElem? hcode]

/-- The text of a beginning of a program is read back as the size and that beginning. -/
theorem decode_textOf (hm : m ≤ codes.length) (hbelow : NeverBelow (codes.take m)) :
    decode (textOf (prologue size ++ layout codes m)) = some (size, codes.take m) := by
  have hsize : ((prologue size ++ layout codes m).map Line.text)[2]?.bind sizeOf? = some size :=
    sizeOf?_tape size
  have hbehind : ((prologue size ++ layout codes m).map Line.text).drop 7 =
      (layout codes m).map Line.text := rfl
  have hcodes : ((layout codes m).map Line.text).filterMap instructionOf? = codes.take m := by
    rw [List.filterMap_map]
    exact instructionsOf_layout hm hbelow
  simp only [decode, linesIn_textOf, hsize, hbehind, hcodes]
  rfl

end Assembly

open Assembly

/-- A text that generation gave is read back as the size and the program. -/
theorem decode_of_generate_eq_ok {codes : List Instruction} {value : Value} {text : String}
    (h : generate codes value = .ok text) :
    ∃ size : Nat, value = .int size ∧ decode text = some (size, codes) := by
  obtain ⟨size, rfl, hpos, hsize, hloops⟩ := exists_size_of_generate_eq_ok h
  have hcases := generated_generate hpos hsize hloops
  rw [h] at hcases
  cases hcases with
  | text hbalanced =>
    have hbelow : NeverBelow (codes.take codes.length) :=
      (List.take_length).symm ▸ hbalanced.1
    have hdecode : decode (textOf (prologue size.toNat ++ layout codes codes.length)) =
        some (size.toNat, codes.take codes.length) := decode_textOf (Nat.le_refl _) hbelow
    rw [List.take_length] at hdecode
    exact ⟨size.toNat, by rw [Int.toNat_of_nonneg (by omega)], hdecode⟩

/-- **The text determines the program.** However a run over a program ends, the text in its sink
is read back as the size and the instructions before the one it stopped at. So two programs with
one text are the same program for the same size. -/
theorem decode_text_of_run :
    (∀ (codes : List Instruction) (size : Int), 1 ≤ size → Number.Writable size →
      Number.Writable (codes.count .loopStart) →
      ∃ emitter m final text,
        Emitter.create (.int size) = .ok emitter ∧
        Emitter.StopsAfter codes (Emitter.run (codes.map .ok) .empty emitter) m final ∧
        m ≤ codes.length ∧ final.text? = some text ∧
        decode text = some (size.toNat, codes.take m)) ∧
    ∀ (first second : List Instruction) (firstSize secondSize : Value) (text : String),
      generate first firstSize = .ok text → generate second secondSize = .ok text →
      first = second ∧ firstSize = secondSize := by
  constructor
  · intro codes size hpos hsize hloops
    have hpos' : 0 < size.toNat := by omega
    have hend : (Emitter.started (.ofSize size.toNat hpos') .empty).Ended codes
        (Emitter.run (codes.map .ok) .empty (.ofSize size.toNat hpos')) :=
      Emitter.ended_run rfl (hsize.toNat hpos) hloops
    obtain ⟨m, positions, hstops, hm, hbelow⟩ := hend.stopsAfter
    exact ⟨_, m, _, _, Emitter.create_int_of_pos hpos', hstops, hm,
      Emitter.text?_advanced_started _ _ _ _, decode_textOf hm hbelow⟩
  · intro first second firstSize secondSize text hfirst hsecond
    obtain ⟨size, rfl, hdecode⟩ := decode_of_generate_eq_ok hfirst
    obtain ⟨other, rfl, hdecode'⟩ := decode_of_generate_eq_ok hsecond
    rw [hdecode, Option.some.injEq, Prod.mk.injEq] at hdecode'
    obtain ⟨rfl, rfl⟩ := hdecode'
    exact ⟨rfl, rfl⟩

/-- A run that stops at a closing bracket too many, and the program before that bracket. -/
theorem decode_text_of_run_extra_loopEnd :
    (1 : Int) ≤ 8 ∧ Number.Writable 8 ∧
      Number.Writable ((Instruction.ofText "[.]]+").count .loopStart) ∧
      (∃ emitter m final text, Emitter.create (.int 8) = .ok emitter ∧
        Emitter.StopsAfter (Instruction.ofText "[.]]+")
          (Emitter.run ((Instruction.ofText "[.]]+").map .ok) .empty emitter) m final ∧
        m ≤ (Instruction.ofText "[.]]+").length ∧ final.text? = some text ∧
        decode text = some (8, (Instruction.ofText "[.]]+").take m)) ∧
      ∃ text, generate (Instruction.ofText "[.]") (.int 8) = .ok text ∧
        ∀ codes value, generate codes value = .ok text →
          codes = Instruction.ofText "[.]" ∧ value = .int 8 := by
  have hsize : Number.Writable 8 := by decide +kernel
  have hloops : Number.Writable ((Instruction.ofText "[.]]+").count .loopStart) := by
    decide +kernel
  have hcases : Generated (Instruction.ofText "[.]") 8 _ :=
    generated_generate (by decide) hsize (by decide +kernel)
  obtain ⟨text, htext⟩ := hcases.exists_eq_ok_iff.2 (by decide)
  exact ⟨by decide, hsize, hloops, decode_text_of_run.1 _ 8 (by decide) hsize hloops,
    text, htext, fun codes value h => decode_text_of_run.2 _ _ _ _ text h htext⟩

end TapeCompiler
