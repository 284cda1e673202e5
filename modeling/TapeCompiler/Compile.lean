/-
# Compiling into a file

The tape size is checked before the output is opened, so a bad size leaves the
file system alone. Once the output is open its old content is gone, and it holds
whatever was emitted, also when the program turns out to be faulty. A failure of
the output carries the path and the reason; every other failure passes through.
-/

import TapeCompiler.Emitter.Basic
import TapeCompiler.Reader
import TapeCompiler.Text.Utf8

namespace TapeCompiler

/-- Why a program could not be compiled into a file. -/
inductive CompileError
  /-- The emitter failed, and not because of its sink. -/
  | emit (error : EmitError)
  /-- The output could not be opened or written. -/
  | output (path : Path) (fault : IoFault)
  | embeddedNul
  deriving DecidableEq, Repr

/-- The wording of a failure. -/
def CompileError.message : CompileError → String
  | emit error => error.message
  | output _ fault => fault.reason
  | embeddedNul => embeddedNulMessage

/-- The failure of an emitter whose sink is the file at a path. -/
def CompileError.ofEmitError (path : Path) : EmitError → CompileError
  | .sink fault => .output path fault
  | error => .emit error

/-- What a compilation left: the emitter at its end or the failure, and the text that the output
took if it was opened. -/
structure Compilation where
  outcome : Except CompileError Emitter
  written : Option String

/-- Compile a source, which may fail while it is read, into the sink that opening the output
gives. -/
def compileEvents (opened : Except AccessError Sink) (path : Path) (events : List Event)
    (tapeSize : Value) : Compilation :=
  match Emitter.create tapeSize with
  | .error error => ⟨.error (.emit error), none⟩
  | .ok emitter =>
    match opened with
    | .error .embeddedNul => ⟨.error .embeddedNul, none⟩
    | .error (.fault fault) => ⟨.error (.output path fault), none⟩
    | .ok sink =>
      match Emitter.run events sink emitter with
      | .ok _ finished => ⟨.ok finished, finished.text?⟩
      | .error error stopped => ⟨.error (.ofEmitError path error), stopped.text?⟩

/-- Compile instructions into the sink that opening the output gives. -/
def compileInto (opened : Except AccessError Sink) (path : Path) (codes : List Instruction)
    (tapeSize : Value) : Compilation :=
  compileEvents opened path (codes.map .ok) tapeSize

/-- Compile into the file at a path of a store. -/
def compile (store : Store) (path : Path) (codes : List Instruction) (tapeSize : Value) :
    Store × Except CompileError Emitter :=
  let opened := store.openForWriting path
  let compilation := compileInto (opened.map fun _ => .empty) path codes tapeSize
  match opened, compilation.written with
  | .ok location, some text =>
    (store.set location (.file (Text.encodeUtf8 text)), compilation.outcome)
  | _, _ => (store, compilation.outcome)

end TapeCompiler
