/-
# What a verbose run logs

A verbose run logs four numbers: the instructions and the bytes of the source file, the
lines of the output and its loops. Each comes from a counter that moves along with the
work, chunk by chunk, line by line and label by label. That they agree with what the two
files hold rests on three facts: a chunk adds its own bytes and instructions, no line has
a line feed of its own, and a label is taken exactly when its line is emitted.

The last two numbers are logged once the program is through. If compiling fails they are
not, and a line about the output that may remain stands in their place.
-/

import TapeCompiler.Proofs.EmittedText
import TapeCompiler.Proofs.SourceKept
import TapeCompiler.Proofs.UnhandledFailures

namespace TapeCompiler

open Brackets

/-! ## Lines of a program -/

namespace Assembly

variable {codes : List Instruction} {code : Instruction} {m q : Nat}

end Assembly

/-! ## The counters of a finished run -/

namespace Emitter

open Assembly

variable {codes : List Instruction} {emitter finished : Emitter}

end Emitter

/-! ## The log -/

namespace CommandLine

variable {logName : String} {settings : Settings} {store after : Store} {output : Path}
  {bytes : List UInt8}

end CommandLine

end TapeCompiler
