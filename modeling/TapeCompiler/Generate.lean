/-
# The assembly text of a program

Generating is a fresh emitter run into a sink that accepts everything. The text
is given only when the whole program went through.
-/

import TapeCompiler.Emitter.Basic

namespace TapeCompiler

/-- The assembly text of a source, which may fail while it is read, for a tape of a given size. -/
def generateEvents (events : List Event) (tapeSize : Value) : Except EmitError String := do
  let emitter ← Emitter.create tapeSize
  match Emitter.run events .empty emitter with
  | .ok _ finished => return finished.text?.getD ""
  | .error error _ => throw error

/-- The assembly text of a program. -/
def generate (codes : List Instruction) (tapeSize : Value) : Except EmitError String :=
  generateEvents (codes.map .ok) tapeSize

end TapeCompiler
