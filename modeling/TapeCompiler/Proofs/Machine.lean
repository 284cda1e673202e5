/-
# A machine for the emitted text

The machine runs lines of text in order. It has a cursor register, a zero flag and
memory, a byte at every address. Counting in memory or in the register sets the
flag by the result; placing the cursor and passing a label leave the flag alone. A
jump goes to the line that defines the label it names, unless the flag is set.

The machine knows the lines that programs without input and output give. On any
other line, and on a jump to a label that no line defines, it is stuck.
-/

import Mathlib.Data.List.Basic
import TapeCompiler.Proofs.EmittedText
import TapeCompiler.Proofs.TapeRuns

namespace TapeCompiler.Machine

open Assembly

/-- Where the machine stands: the number of the next line, the cursor register, the zero flag
and the memory. -/
structure State where
  line : Nat
  cursor : Int
  zero : Bool
  memory : Int → UInt8

namespace State

/-- Go to another line. -/
def goTo (s : State) (line : Nat) : State := { s with line := line }

/-- Put a value into memory under the cursor, set the flag by it and go on. -/
def put (s : State) (value : UInt8) : State :=
  ⟨s.line + 1, s.cursor, value == 0, Function.update s.memory s.cursor value⟩

/-- Count the cursor to an address, set the flag by it and go on. -/
def move (s : State) (cursor : Int) : State := ⟨s.line + 1, cursor, cursor == 0, s.memory⟩

/-- Place the cursor at an address and go on; the flag stays. -/
def place (s : State) (cursor : Int) : State := ⟨s.line + 1, cursor, s.zero, s.memory⟩

end State

/-- What a line of text tells the machine to do. -/
inductive Operation
  | incCell
  | decCell
  | incCursor
  | decCursor
  /-- Place the cursor on a cell of the tape. -/
  | placeCursor (cell : Nat)
  /-- Pass a label. -/
  | pass
  /-- Jump to the label of this name unless the flag is set. -/
  | jump (name : String)
  deriving DecidableEq, Repr

/-- The text behind a beginning. -/
def behind? (beginning text : String) : Option String :=
  (beginning.toList.isPrefixOf? text.toList).map String.ofList

/-- The number that a run of decimal digits denotes. -/
def cellOf? (digits : String) : Option Nat :=
  if digits.toList ≠ [] ∧ digits.toList.all Char.isDigit then
    some (Nat.ofDigitChars 10 digits.toList 0)
  else none

/-- The operation of a line of text. -/
def Operation.ofLine? (line : String) : Option Operation :=
  -- The lines that count are told by their whole text, the others by how they end or begin.
  if line = "  inc BYTE [EAX]" then some .incCell
  else if line = "  dec BYTE [EAX]" then some .decCell
  else if line = "  inc EAX" then some .incCursor
  else if line = "  dec EAX" then some .decCursor
  else if isMark line then some .pass
  else match behind? jumpText line with
    | some name => some (.jump name)
    | none => ((behind? "  mov EAX, tape+" line).bind cellOf?).map .placeCursor

/-- Perform an operation among the given lines. The tape lies at the given address. -/
def Operation.perform (tape : Int) (lines : List String) (s : State) : Operation → Option State
  | incCell => some (s.put (s.memory s.cursor + 1))
  | decCell => some (s.put (s.memory s.cursor - 1))
  | incCursor => some (s.move (s.cursor + 1))
  | decCursor => some (s.move (s.cursor - 1))
  | placeCursor cell => some (s.place (tape + cell))
  | pass => some (s.goTo (s.line + 1))
  | jump name =>
    if s.zero then some (s.goTo (s.line + 1)) else (lines.idxOf? (name ++ ":")).map s.goTo

/-- Run the next line. -/
def step (tape : Int) (lines : List String) (s : State) : Option State :=
  (lines[s.line]?.bind Operation.ofLine?).bind (Operation.perform tape lines s)

/-- The line behind the entry point. -/
def firstLine (lines : List String) : Nat := lines.idxOf "_start:" + 1

/-- The run from a state comes to the end of the lines, in the given state. -/
def Halts (tape : Int) (lines : List String) (start final : State) : Prop :=
  ∃ n, runFor (step tape lines) n start = some final ∧ final.line = lines.length

theorem step_eq_none_of_end {tape : Int} {lines : List String} {s : State}
    (h : lines.length ≤ s.line) : step tape lines s = none := by
  rw [step, List.getElem?_eq_none h, Option.bind_none, Option.bind_none]

theorem step_eq_perform {tape : Int} {lines : List String} {s : State} {text : String}
    {operation : Operation} (hline : lines[s.line]? = some text)
    (hoperation : Operation.ofLine? text = some operation) :
    step tape lines s = operation.perform tape lines s := by
  rw [step, hline, Option.bind_some, hoperation, Option.bind_some]

/-- A run comes to the end in at most one state. -/
theorem Halts.unique {tape : Int} {lines : List String} {start final other : State}
    (h : Halts tape lines start final) (h' : Halts tape lines start other) : final = other := by
  obtain ⟨m, hm, hend⟩ := h
  obtain ⟨n, hn, hend'⟩ := h'
  exact eq_of_runFor_stuck hm (step_eq_none_of_end (Nat.le_of_eq hend.symm)) hn
    (step_eq_none_of_end (Nat.le_of_eq hend'.symm))

/-! ## The emitted lines -/

theorem behind?_append (beginning rest : String) :
    behind? beginning (beginning ++ rest) = some rest := by
  have hrest : beginning.toList.isPrefixOf? (beginning.toList ++ rest.toList) =
      some rest.toList := List.isPrefixOf?_eq_some_iff_append_eq.2 rfl
  rw [behind?, String.toList_append, hrest, Option.map_some, String.ofList_toList]

theorem cellOf?_toString (n : Nat) : cellOf? (toString n) = some n := by
  have hchars : (toString n).toList = Nat.toDigits 10 n := by simp
  have hdigits : (Nat.toDigits 10 n).all Char.isDigit = true :=
    List.all_eq_true.2 fun _ hmem => Nat.isDigit_of_mem_toDigits (by decide) (by decide) hmem
  rw [cellOf?, hchars, if_pos ⟨Nat.toDigits_ne_nil, hdigits⟩, Nat.ofDigitChars_ten_toDigits]

/-- A line that is none of the four that count is read by its colon or by its beginning. -/
theorem ofLine?_of_notMem {line : String}
    (h : line ∉ ["  inc BYTE [EAX]", "  dec BYTE [EAX]", "  inc EAX", "  dec EAX"]) :
    Operation.ofLine? line =
      if isMark line then some .pass
      else match behind? jumpText line with
        | some name => some (.jump name)
        | none => ((behind? "  mov EAX, tape+" line).bind cellOf?).map .placeCursor := by
  simp only [List.mem_cons, List.not_mem_nil, or_false, not_or] at h
  obtain ⟨hincCell, hdecCell, hincCursor, hdecCursor⟩ := h
  exact (if_neg hincCell).trans ((if_neg hdecCell).trans ((if_neg hincCursor).trans
    (if_neg hdecCursor)))

theorem ofLine?_label (id : Nat) : Operation.ofLine? (Line.label id).text = some .pass := by
  rw [ofLine?_of_notMem (by simp [← String.toList_inj, Line.text_label, nameOf]),
    Line.isMark_text]
  rfl

theorem ofLine?_jumpBack (id : Nat) :
    Operation.ofLine? (Line.jumpBack id).text = some (.jump (nameOf id)) := by
  rw [ofLine?_of_notMem (by simp [← String.toList_inj, Line.text_jumpBack, jumpText]),
    Line.isMark_text, Line.text_jumpBack, behind?_append]
  rfl

theorem ofLine?_placeCursor (cell : Nat) :
    Operation.ofLine? (Line.placeCursor cell).text = some (.placeCursor cell) := by
  -- Both kinds of line begin with two blanks, but the next character differs.
  have hjump : behind? jumpText (Line.placeCursor cell).text = none := by
    simp [behind?, Line.text_placeCursor, jumpText, List.isPrefixOf?]
  rw [ofLine?_of_notMem (by simp [← String.toList_inj, Line.text_placeCursor]), Line.isMark_text,
    hjump, Line.text_placeCursor, behind?_append, Option.bind_some, cellOf?_toString]
  rfl

end TapeCompiler.Machine
