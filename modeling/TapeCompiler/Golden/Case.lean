/-
# Golden cases

A golden case is a directory with a program, the assembly text expected of it,
and perhaps a document with settings. Checking a case compiles the program and
compares; regenerating it stores what the program compiles to.

The settings are read before the program, and the program before the expected
text, so the first of several failures is the one reported. A list of all cases
cannot be had if a path through one of the names below their directory is too
long to be looked at.
-/

import TapeCompiler.Diff.Unified
import TapeCompiler.Document.Integer
import TapeCompiler.Document.Read
import TapeCompiler.Generate
import TapeCompiler.Reader
import TapeCompiler.TextFile

namespace TapeCompiler.Golden

/-- Why work on a case failed. -/
inductive Failure
  | file (error : FileError)
  | source (error : ReadError)
  | document (error : Document.ReadError)
  /-- The settings are a document of this kind and not an object. -/
  | notObject (kind : String)
  | tapeSize (error : Document.IntegerError)
  | emit (error : EmitError)
  deriving DecidableEq, Repr

/-- The wording of a failure. -/
def Failure.message : Failure → String
  | file error => error.message
  | source error => error.message
  | document error => error.message
  | notObject kind => "'" ++ kind ++ "' object has no attribute 'get'"
  | tapeSize error => error.message
  | emit error => error.message

/-- The directory of all cases: the path to it, and the room there is for work on them. -/
structure Directory where
  path : Path
  room : Headroom
  deriving DecidableEq, Repr

/-- A file of a case, the case given by its name below the directory of all cases. -/
def caseFile (golden : Directory) (name file : String) : Path :=
  (golden.path.join (Path.ofText name)).join ⟨.relative, [file]⟩

/-- The program of a case. -/
def programFile : String := "program.bf"

/-- The assembly text expected of a case. -/
def expectedFile : String := "program.asm"

/-- The settings of a case. -/
def settingsFile : String := "meta.json"

/-- The settings of a case; without a file they are an empty object. -/
def settings (store : Store) (golden : Directory) (name : String) : Except Failure Document :=
  let path := caseFile golden name settingsFile
  match store.pathExists path with
  | .error fault => .error (.file (.fault path fault))
  | .ok false => .ok (.object [])
  | .ok true =>
    match TextFile.read store path with
    | .error error => .error (.file error)
    | .ok text =>
      match Document.read golden.room.containers text with
      | .error error => .error (.document error)
      | .ok document => .ok document

/-- The size of the tape that settings ask for. -/
def tapeSize : Document → Except Failure Int
  | .object members =>
    match Document.member? "tape_size" members with
    | none => .ok defaultTapeSize
    | some value =>
      match value.toInteger with
      | .ok n => .ok n
      | .error error => .error (.tapeSize error)
  | other => .error (.notObject other.kind)

/-- The assembly text of a source file. -/
def compileFile (store : Store) (path : Path) (size : Value) : Except Failure String :=
  match Program.load store path with
  | .error error => .error (.source error)
  | .ok program =>
    match generate program.codes size with
    | .error error => .error (.emit error)
    | .ok text => .ok text

/-- The assembly text that a case compiles to. -/
def actual (store : Store) (golden : Directory) (name : String) : Except Failure String := do
  let document ← settings store golden name
  let size ← tapeSize document
  compileFile store (caseFile golden name programFile) (.int size)

/-- The diff from an expected text to an actual one. -/
def drift (name expected actual : String) : String :=
  String.join (Diff.unified (name ++ "/program.asm") (name ++ "/actual.asm")
    (Text.splitLines expected) (Text.splitLines actual))

/-- Check a case: nothing if the texts are equal, and their diff otherwise. -/
def check (store : Store) (golden : Directory) (name : String) :
    Except Failure (Option String) := do
  let text ← actual store golden name
  match TextFile.read store (caseFile golden name expectedFile) with
  | .error error => throw (.file error)
  | .ok expected => return if text = expected then none else some (drift name expected text)

/-- Regenerate a case. -/
def regenerate (store : Store) (golden : Directory) (name : String) :
    Store × Except Failure Unit :=
  match actual store golden name with
  | .error failure => (store, .error failure)
  | .ok text =>
    match TextFile.write store (caseFile golden name expectedFile) text
      golden.room.directories with
    | (after, .ok ()) => (after, .ok ())
    | (after, .error error) => (after, .error (.file error))

/-- Whether a name below the directory of all cases is that of a case: a directory with a
program. -/
def isCase (store : Store) (golden : Directory) (name : String) : Except Failure Bool :=
  let directory := golden.path.join ⟨.relative, [name]⟩
  let program := directory.join ⟨.relative, [programFile]⟩
  match store.isDirectory directory with
  | .error fault => .error (.file (.fault directory fault))
  | .ok false => .ok false
  | .ok true =>
    match store.pathExists program with
    | .error fault => .error (.file (.fault program fault))
    | .ok there => .ok there

/-- The names of all cases, in ascending order. A name of which it cannot be told whether it is
that of a case ends the listing. -/
def caseNames (store : Store) (golden : Directory) : Except Failure (List String) :=
  match store.list golden.path with
  | .error error => .error (.file (.ofAccess golden.path error))
  | .ok names =>
    match names.filterM (isCase store golden) with
    | .error failure => .error failure
    | .ok cases => .ok (cases.mergeSort fun a b => !decide (b < a))

end TapeCompiler.Golden
