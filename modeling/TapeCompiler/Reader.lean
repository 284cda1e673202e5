/-
# Reading a source file

A source file is read in chunks of bounded size until a read gives nothing.
Instructions are collected chunk by chunk, and the bytes are counted. A failure
to open the file or to read from it carries the path and the reason, and then
nothing of the program is kept.
-/

import TapeCompiler.Source
import TapeCompiler.Store

namespace TapeCompiler

/-- The greatest number of bytes one read gives. -/
def chunkSize : Nat := 65536

/-- The instructions of a source file and the number of its bytes. -/
structure Program where
  codes : List Instruction
  bytes : Nat
  deriving DecidableEq, Repr

/-- Why a source file could not be read. -/
inductive ReadError
  | cannotOpen (path : Path) (fault : IoFault)
  | cannotRead (path : Path) (fault : IoFault)
  | embeddedNul
  deriving DecidableEq, Repr

/-- The wording of a failure. -/
def ReadError.message : ReadError → String
  | cannotOpen path fault => "Cannot open " ++ path.text ++ ": " ++ fault.reason
  | cannotRead path fault => "Cannot read from " ++ path.text ++ ": " ++ fault.reason
  | embeddedNul => embeddedNulMessage

namespace Program

/-- Read the rest of a file chunk by chunk, behind what was read already. The end of the file
shows as one further read that gives nothing. -/
def readRest (quota : Option Quota) (rest : List UInt8) (sofar : Program) :
    Except IoFault Program :=
  match Quota.spend quota with
  | .error fault => .error fault
  | .ok quota =>
    if rest = [] then .ok sofar
    else
      let chunk := rest.take chunkSize
      readRest quota (rest.drop chunkSize)
        ⟨sofar.codes ++ Instruction.ofBytes chunk, sofar.bytes + chunk.length⟩
termination_by rest.length
decreasing_by
  have : rest.length ≠ 0 := by simpa using ‹¬rest = []›
  simp only [List.length_drop, chunkSize]
  omega

/-- Read a file that has been opened. -/
def readOpened (quota : Option Quota) (path : Path) (bytes : List UInt8) :
    Except ReadError Program :=
  match readRest quota bytes ⟨[], 0⟩ with
  | .ok program => .ok program
  | .error fault => .error (.cannotRead path fault)

/-- Read the source file at a path. -/
def load (store : Store) (path : Path) : Except ReadError Program :=
  match store.contents path with
  | .ok bytes => readOpened none path bytes
  | .error (.fault fault) => .error (.cannotOpen path fault)
  | .error .embeddedNul => .error .embeddedNul

end Program

end TapeCompiler
