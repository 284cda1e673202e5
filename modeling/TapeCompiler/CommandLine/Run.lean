/-
# One run of the compiler

A run reads its settings, the source file and then writes the output file. It
ends with an exit code, or with a failure that nothing on the way handles. There
are four of these: a path without a name has no extension to be changed; a path
holds a NUL character; the output option holds no path; the emitter is given no
size, or comes to a number that is too long to be written. The run says what went
to each channel and what the file system looks like afterwards.
-/

import TapeCompiler.CommandLine.Settings
import TapeCompiler.Compile

namespace TapeCompiler.CommandLine

/-- How a run ends. -/
inductive Ending (ε : Type)
  | exit (code : Nat)
  /-- A failure went unhandled. -/
  | escaped (failure : ε)
  deriving DecidableEq, Repr

/-- What a run leaves behind. -/
structure Report (ε : Type) where
  ending : Ending ε
  out : String
  err : String
  store : Store
  deriving DecidableEq, Repr

/-- A failure that ends a run of the compiler unhandled. -/
inductive Escape
  /-- The extension of a path cannot be changed. -/
  | extension (error : Path.ExtensionError)
  | embeddedNul
  /-- The output option holds no path. -/
  | noOutputPath
  /-- The emitter stops, and not over the brackets. -/
  | emit (error : EmitError)
  deriving DecidableEq, Repr

/-- The wording of an unhandled failure. -/
def Escape.message : Escape → String
  | extension error => error.message
  | embeddedNul => embeddedNulMessage
  | noOutputPath => "expected str, bytes or os.PathLike object, not list"
  | emit error => error.message

/-- Texts as lines. -/
def linesOf (texts : List String) : String :=
  String.join (texts.map (· ++ "\n"))

/-- The commands that assemble and link an output file. -/
def toolchainHint (output : Path) : Except Path.ExtensionError (List String) := do
  let object ← output.withExtension "o"
  let executable ← output.withExtension "exe"
  return ["  nasm -f elf64 -o " ++ object.text ++ " " ++ output.text,
    "  ld -o " ++ executable.text ++ " " ++ object.text]

/-- The lines that report a success, above the commands. -/
def doneLines (output : Path) : List String :=
  ["Done! Output has been written to " ++ output.text ++ ".",
    "You can compile it by running the following commands:"]

/-- A log line about the source file. -/
def readLog (file : Path) (instructions bytes : Nat) : String :=
  "DEBUG translator.lexer: read " ++ file.text ++ ": " ++ toString instructions ++ " of " ++
    toString bytes ++ " bytes are instructions"

/-- A log line about the finished output. -/
def emitLog (lines loops : Nat) : String :=
  "DEBUG translator.codegen: emitted " ++ toString lines ++ " lines, " ++ toString loops ++
    " loop(s)"

/-- A log line about an output that may be incomplete. -/
def partialLog (logName : String) (output : Path) : String :=
  "DEBUG " ++ logName ++ ": partial output may remain in " ++ output.text

/-- The name under which the command line logs. -/
def defaultLogName : String := "translator.cli"

/-- Lines that appear only in a verbose run. -/
def Settings.log (settings : Settings) (lines : List String) : String :=
  if settings.verbose then linesOf lines else ""

/-- The output file that settings ask for: the one given, or the source file with its extension
changed. -/
def Settings.outputPath (settings : Settings) : Except Path.ExtensionError (Given Path) :=
  match settings.output with
  | some given => .ok given
  | none => (settings.file.withExtension "asm").map .value

/-- The report of a program that was compiled. -/
def reportDone (output : Path) (log : String) (store : Store) :
    Report Escape :=
  match toolchainHint output with
  | .ok hint => ⟨.exit 0, linesOf (doneLines output ++ hint), log, store⟩
  | .error error => ⟨.escaped (.extension error), linesOf (doneLines output), log, store⟩

/-- The report of a program that could not be compiled. -/
def reportFailed (logName : String) (settings : Settings) (output : Path) (log : String)
    (store : Store) (error : CompileError) : Report Escape :=
  let handled : Report Escape :=
    ⟨.exit 1, "", log ++ settings.log [partialLog logName output] ++
      linesOf ["Error compiling to " ++ output.text ++ ": " ++ error.message], store⟩
  match error with
  | .output _ _ => handled
  | .emit (.loops _) => handled
  | .emit other => ⟨.escaped (.emit other), "", log, store⟩
  | .embeddedNul => ⟨.escaped .embeddedNul, "", log, store⟩

/-- Compile a program that was read. -/
def runCompile (logName : String) (settings : Settings) (store : Store) (program : Program) :
    Given Path → Report Escape
  | .nothing =>
    let log := settings.log [readLog settings.file program.codes.length program.bytes]
    match Emitter.create settings.tapeValue with
    | .error error => ⟨.escaped (.emit error), "", log, store⟩
    | .ok _ => ⟨.escaped .noOutputPath, "", log, store⟩
  | .value output =>
    let log := settings.log [readLog settings.file program.codes.length program.bytes]
    match compile store output program.codes settings.tapeValue with
    | (after, .ok finished) =>
      -- Labels count from one, so the next label is one ahead of the loops.
      reportDone output (log ++ settings.log [emitLog finished.lines (finished.nextLabel - 1)])
        after
    | (after, .error error) => reportFailed logName settings output log after error

/-- Run with settings. -/
def runSettings (logName : String) (settings : Settings) (store : Store) : Report Escape :=
  match settings.outputPath with
  | .error error => ⟨.escaped (.extension error), "", "", store⟩
  | .ok output =>
    match Program.load store settings.file with
    | .error .embeddedNul => ⟨.escaped .embeddedNul, "", "", store⟩
    | .error error => ⟨.exit 1, "", linesOf [error.message], store⟩
    | .ok program => runCompile logName settings store program output

/-- Run the compiler with command line arguments. -/
def run (logName : String) (store : Store) (arguments : List String) : Report Escape :=
  match Settings.read arguments with
  | .ok settings => runSettings logName settings store
  | .error stop =>
    let (code, out, err) := Settings.interface.respond stop
    ⟨.exit code, out, err, store⟩

end TapeCompiler.CommandLine
