/-
# The eight instructions

A program is a list of instructions for a cursor on a tape of cells. Each
instruction is written as one character, and every other character of a source
text is comment. The reading of characters is partial and the writing is total;
each undoes the other on the eight characters.
-/

namespace TapeCompiler

/-- One instruction of the tape language. -/
inductive Instruction
  /-- Add one to the cell under the cursor. -/
  | incCell
  /-- Subtract one from the cell under the cursor. -/
  | decCell
  /-- Move the cursor one cell up. -/
  | incCursor
  /-- Move the cursor one cell down. -/
  | decCursor
  /-- Write the cell under the cursor. -/
  | write
  /-- Read into the cell under the cursor. -/
  | read
  /-- Open a loop. -/
  | loopStart
  /-- Close the innermost open loop. -/
  | loopEnd
  deriving DecidableEq, Repr

namespace Instruction

/-- Every instruction, in the order of the table. -/
def all : List Instruction :=
  [incCell, decCell, incCursor, decCursor, write, read, loopStart, loopEnd]

/-- The character an instruction is written as. -/
def char : Instruction → Char
  | incCell => '+'
  | decCell => '-'
  | incCursor => '>'
  | decCursor => '<'
  | write => '.'
  | read => ','
  | loopStart => '['
  | loopEnd => ']'

/-- The instruction a character stands for; `none` marks a comment. -/
def ofChar? : Char → Option Instruction
  | '+' => some incCell
  | '-' => some decCell
  | '>' => some incCursor
  | '<' => some decCursor
  | '.' => some write
  | ',' => some read
  | '[' => some loopStart
  | ']' => some loopEnd
  | _ => none

/-- The instruction a whole text stands for: a text of several characters, or of
none, stands for no instruction. -/
def ofText? (text : String) : Option Instruction :=
  match text.toList with
  | [c] => ofChar? c
  | _ => none

/-- The word that names an instruction in data. -/
def mnemonic : Instruction → String
  | incCell => "mem_inc"
  | decCell => "mem_dec"
  | incCursor => "ptr_inc"
  | decCursor => "ptr_dec"
  | write => "sys_write"
  | read => "sys_read"
  | loopStart => "loop_start"
  | loopEnd => "loop_end"

/-- The mnemonic in capitals, as the table lists it. -/
def tableName (instruction : Instruction) : String :=
  instruction.mnemonic.map Char.toUpper

/-- The instruction with a given mnemonic. -/
def ofMnemonic? (word : String) : Option Instruction :=
  all.find? fun instruction => instruction.mnemonic == word

/-- The instructions beside their characters, in the order of the characters. -/
def byChar : List (Char × Instruction) :=
  (all.map fun instruction => (instruction.char, instruction)).mergeSort
    fun a b => decide (a.1 ≤ b.1)

/-- The source text of a list of instructions, with no comment in it. -/
def sourceOf (codes : List Instruction) : String :=
  String.ofList (codes.map char)

theorem mem_all (instruction : Instruction) : instruction ∈ all := by
  cases instruction <;> decide

@[simp]
theorem ofChar?_char (instruction : Instruction) :
    ofChar? instruction.char = some instruction := by
  cases instruction <;> rfl

/-- A character read as an instruction is the character that writes it. -/
theorem char_eq_of_ofChar?_eq_some {c : Char} {instruction : Instruction}
    (h : ofChar? c = some instruction) : instruction.char = c := by
  unfold ofChar? at h
  split at h <;> simp_all [char]
  all_goals subst h; rfl

theorem ofChar?_eq_some_iff {c : Char} {instruction : Instruction} :
    ofChar? c = some instruction ↔ instruction.char = c :=
  ⟨char_eq_of_ofChar?_eq_some, fun h => h ▸ ofChar?_char instruction⟩

theorem char_injective {instruction other : Instruction}
    (h : instruction.char = other.char) : instruction = other :=
  Option.some.inj (by rw [← ofChar?_char, h, ofChar?_char])

@[simp]
theorem ofMnemonic?_mnemonic (instruction : Instruction) :
    ofMnemonic? instruction.mnemonic = some instruction := by
  cases instruction <;> decide +kernel

end Instruction

end TapeCompiler
