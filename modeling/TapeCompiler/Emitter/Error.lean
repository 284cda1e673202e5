/-
# Why emission fails

The brackets of a program fail to pair up in two ways: one closes a loop that was
never opened, or some are open when the program ends. The other failures come
from outside: the size of the tape, the source, the sink.
-/

import TapeCompiler.Fault
import TapeCompiler.Source

namespace TapeCompiler

/-- How the brackets of a program fail to pair up. -/
inductive LoopError
  /-- The instruction at this index closes a loop that was never opened. -/
  | unmatchedEnd (index : Int)
  /-- This many loops are open when the program ends. -/
  | unclosed (count : Int)
  deriving DecidableEq, Repr

/-- The wording of a pairing error; `none` when its count is too long to be written. -/
def LoopError.message? : LoopError → Option String
  | unmatchedEnd _ => some "Compile error: Found a `]` code without a matching `[`"
  | unclosed count => (Number.numeral? count).map fun digits =>
      "Compile error: Reached end of file with " ++ digits ++ " `[` code(s) unclosed"

/-- The wording of a pairing error that an emitter meets. -/
def LoopError.message (error : LoopError) : String := error.message?.getD ""

/-- Why an action of an emitter failed. -/
inductive EmitError
  /-- The size asked for, shown here, is no positive number. -/
  | badTapeSize (shown : String)
  /-- A number is too long to be written. -/
  | unwritable
  /-- There is no sink. -/
  | noSink
  /-- The sink refused a write. -/
  | sink (fault : IoFault)
  /-- The source failed while it was read. -/
  | source (fault : SourceFault)
  /-- The brackets do not pair up. -/
  | loops (error : LoopError)
  deriving DecidableEq, Repr

/-- The wording of a failure. -/
def EmitError.message : EmitError → String
  | badTapeSize shown => "tape size must be a positive integer, got " ++ shown
  | unwritable => Number.unwritableMessage
  | noSink => ""
  | sink fault => fault.shown
  | source fault => fault.message
  | loops error => error.message

end TapeCompiler
