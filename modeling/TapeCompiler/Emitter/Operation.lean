/-
# Operations on one emitter

An emitter can be driven step by step. A step that fails leaves the emitter
usable, and running a whole program starts over whatever was done before.
-/

import TapeCompiler.Emitter.Basic

namespace TapeCompiler.Emitter

/-- One thing to do with an emitter. -/
inductive Operation
  /-- Emit a whole program into a new sink. -/
  | run (events : List Event) (sink : Sink)
  /-- Exchange the sink, or take it away. -/
  | attach (sink : Option Sink)
  /-- Emit a line of any text. -/
  | emitText (line : String)
  | openLoop
  | closeLoop (index : Int)
  | prologue
  /-- Emit the block of one instruction. -/
  | code (index : Int) (instruction : Instruction)

/-- Perform an operation. Those on loops answer with a label. -/
def Operation.perform : Operation → Action (Option Nat)
  | run events sink => do Emitter.run events sink; return none
  | attach sink => do Emitter.attach sink; return none
  | emitText line => do Emitter.emitText line; return none
  | openLoop => do return some (← Emitter.openLoop)
  | closeLoop index => do return some (← Emitter.closeLoop index)
  | prologue => do emitPrologue; return none
  | code index instruction => do emitCode index instruction; return none

/-- The emitter after an operation, whether it failed or not. -/
def after (emitter : Emitter) (operation : Operation) : Emitter :=
  match operation.perform emitter with
  | .ok _ next => next
  | .error _ next => next

/-- The emitter after operations in order. -/
def afterAll (emitter : Emitter) (operations : List Operation) : Emitter :=
  operations.foldl after emitter

end TapeCompiler.Emitter
