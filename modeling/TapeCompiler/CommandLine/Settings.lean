/-
# The settings of the compiler

The compiler takes one source file and three options: the output file, the size
of the tape and a switch for log lines. An option given twice takes its last
value.
-/

import TapeCompiler.CommandLine.Reading
import TapeCompiler.Emitter.Basic
import TapeCompiler.Path

namespace TapeCompiler.CommandLine

/-- What an option with a value holds after it was given. -/
inductive Given (α : Type)
  | value (a : α)
  /-- The separator stood in place of the value, which leaves an empty list. -/
  | nothing
  deriving DecidableEq, Repr

/-- The text of what an option holds. -/
def Given.text {α : Type} (display : α → String) : Given α → String
  | value a => display a
  | nothing => "[]"

/-- The settings of one run. -/
structure Settings where
  file : Path
  output : Option (Given Path)
  tapeSize : Given Nat
  verbose : Bool
  deriving DecidableEq, Repr

namespace Settings

/-- The settings before any argument is read. -/
def start : Settings where
  file := ⟨.relative, []⟩
  output := none
  tapeSize := .value defaultTapeSize
  verbose := false

/-- The size of the tape as the emitter takes it. -/
def tapeValue (settings : Settings) : Value :=
  match settings.tapeSize with
  | .value n => .int n
  | .nothing => .list []

/-- Set the output file. -/
def setOutput (value : Option String) (settings : Settings) : Except String Settings :=
  .ok { settings with
    output := some (match value with
      | some text => .value (Path.ofText text)
      | none => .nothing) }

/-- Set the size of the tape. -/
def setTapeSize (value : Option String) (settings : Settings) : Except String Settings :=
  match value with
  | none => .ok { settings with tapeSize := .nothing }
  | some text =>
    match Number.readPositive text with
    | .ok n => .ok { settings with tapeSize := .value n }
    | .error error => .error error.message

/-- The help text below the usage line. -/
def helpText : String :=
  String.join
    ["Brainfuck -> x86 NASM translator\n",
     "\n",
     "positional arguments:\n",
     "  file                  input .bf file\n",
     "\n",
     "options:\n",
     "  -h, --help            show this help message and exit\n",
     "  -o OUT, --out OUT     output .asm file (default: <file> with extension\n",
     "                        changed)\n",
     "  --tape-size TAPE_SIZE\n",
     "                        tape size to allocate in the output program (default:\n",
     "                        1048576)\n",
     "  -v, --verbose         debug logging to stderr\n"]

/-- The option for the output file. -/
def outputOption : OptionSpec Settings := ⟨["-o", "--out"], .value setOutput⟩

/-- The option for the size of the tape. -/
def sizeOption : OptionSpec Settings := ⟨["--tape-size"], .value setTapeSize⟩

/-- The option for log lines. -/
def verboseOption : OptionSpec Settings :=
  ⟨["-v", "--verbose"], .flag fun settings => { settings with verbose := true }⟩

/-- The command line of the compiler. -/
def interface : Interface Settings where
  program := "bfc"
  usage := "usage: bfc [-h] [-o OUT] [--tape-size TAPE_SIZE] [-v] file"
  help := helpText
  options := [⟨["-h", "--help"], .help⟩, outputOption, sizeOption, verboseOption]
  operand := .one "file" fun text settings => { settings with file := Path.ofText text }

/-- The settings that a command line asks for. -/
def read (arguments : List String) : Except Stop Settings :=
  interface.read start arguments

end Settings

end TapeCompiler.CommandLine
