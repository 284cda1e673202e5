/-
# Instructions named by values

Callers name instructions by their mnemonics. Any other value, of whatever kind,
names none and is shown in the refusal.
-/

import TapeCompiler.Instruction
import TapeCompiler.Value

namespace TapeCompiler

/-- A value that names no instruction, as messages show it; `none` when it holds a number too
long to be written. -/
structure UnknownInstruction where
  shown? : Option String
  deriving DecidableEq, Repr

/-- The wording of the refusal. -/
def UnknownInstruction.message (unknown : UnknownInstruction) : String :=
  match unknown.shown? with
  | some shown => shown ++ " is not a valid Instruction"
  | none => Number.unwritableMessage

namespace Instruction

/-- The instruction that a value names. -/
def ofValue (value : Value) : Except UnknownInstruction Instruction :=
  match value with
  | .text word =>
    match ofMnemonic? word with
    | some instruction => .ok instruction
    | none => .error ⟨value.shown?⟩
  | _ => .error ⟨value.shown?⟩

/-- The instructions that values name, up to the first that names none. -/
def ofValues : List Value → Except UnknownInstruction (List Instruction)
  | [] => .ok []
  | value :: rest => do
    let instruction ← ofValue value
    let others ← ofValues rest
    return instruction :: others

@[simp]
theorem ofValue_mnemonic (instruction : Instruction) :
    ofValue (.text instruction.mnemonic) = .ok instruction := by
  simp [ofValue]

end Instruction

end TapeCompiler
