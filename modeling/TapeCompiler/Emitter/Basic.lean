/-
# The emitter

An emitter turns instructions into lines of assembly in one pass. It hands each
line to a sink in two writes, the line and its line end, and counts the lines
that went through. Loops are paired by a stack: an opening bracket takes a fresh
label and pushes it, a closing bracket pops the innermost one.

An action of the emitter may fail, and leaves the emitter as it was when it
failed, so the failure and the state after it are both part of the result.
-/

import TapeCompiler.Assembly
import TapeCompiler.Emitter.Error
import TapeCompiler.Sink

namespace TapeCompiler

/-- The number of cells of a tape when nobody asks for another. -/
def defaultTapeSize : Nat := 1048576

/-- An emitter between two actions. -/
structure Emitter where
  tapeSize : Nat
  tapeSize_pos : 0 < tapeSize
  /-- Where lines go, if anywhere. -/
  sink : Option Sink
  /-- The labels of the open loops, the innermost first. -/
  openLoops : List Nat
  /-- The label the next loop takes. -/
  nextLabel : Nat
  /-- The lines that the sink took whole. -/
  lines : Nat

namespace Emitter

/-- A new emitter for a tape of the given size. -/
def ofSize (tapeSize : Nat) (pos : 0 < tapeSize) : Emitter where
  tapeSize := tapeSize
  tapeSize_pos := pos
  sink := none
  openLoops := []
  nextLabel := 1
  lines := 0

/-- A new emitter for a size given as a value of any kind. Only a positive whole number will
do, and a truth value is none. -/
def create (size : Value) : Except EmitError Emitter :=
  let refused : Except EmitError Emitter :=
    match size.shown? with
    | some shown => .error (.badTapeSize shown)
    | none => .error .unwritable
  match size with
  | .int n => if pos : 0 < n.toNat then .ok (ofSize n.toNat pos) else refused
  | _ => refused

/-- An action: it may fail, and leaves an emitter either way. -/
abbrev Action := EStateM EmitError Emitter

/-- Give one text to the sink. -/
def put (piece : String) : Action Unit := fun emitter =>
  match emitter.sink with
  | none => .error .noSink emitter
  | some sink =>
    match sink.write piece with
    | .error fault => .error (.sink fault) emitter
    | .ok sink => .ok () { emitter with sink := some sink }

/-- Emit one line of text. The line counts once its line end is written too. -/
def emitText (line : String) : Action Unit := do
  put line
  put "\n"
  modify fun emitter => { emitter with lines := emitter.lines + 1 }

/-- Emit one line of assembly. -/
def emit (line : Line) : Action Unit :=
  match line.render? with
  | some text => emitText text
  | none => throw .unwritable

/-- Emit lines in order. -/
def emitAll : List Line → Action Unit
  | [] => pure ()
  | line :: rest => do
    emit line
    emitAll rest

/-- Open a loop: take a fresh label and push it. -/
def openLoop : Action Nat := fun emitter =>
  .ok emitter.nextLabel
    { emitter with
      openLoops := emitter.nextLabel :: emitter.openLoops
      nextLabel := emitter.nextLabel + 1 }

/-- Close the innermost loop: pop its label. The index names the closing instruction. -/
def closeLoop (index : Int) : Action Nat := fun emitter =>
  match emitter.openLoops with
  | [] => .error (.loops (.unmatchedEnd index)) emitter
  | label :: others => .ok label { emitter with openLoops := others }

/-- Emit the lines before the first instruction. -/
def emitPrologue : Action Unit := do
  emitAll (Assembly.prologue (← get).tapeSize)

/-- Emit the block of one instruction. A label is pushed or popped before its line is
emitted. -/
def emitCode (index : Int) : Instruction → Action Unit
  | .loopStart => do emit (.label (← openLoop))
  | .loopEnd => do emit (.jumpBack (← closeLoop index))
  | instruction => emitAll (Assembly.simpleBlock instruction)

/-- Emit the blocks of a source, the instructions numbered from `index` on. -/
def emitEvents : Nat → List Event → Action Unit
  | _, [] => pure ()
  | _, .error fault :: _ => throw (.source fault)
  | index, .ok instruction :: rest => do
    emitCode index instruction
    emitEvents (index + 1) rest

/-- Exchange the sink, or take it away, and leave all else. -/
def attach (sink : Option Sink) : Action Unit :=
  modify fun emitter => { emitter with sink := sink }

/-- Start over with a new sink. -/
def restart (sink : Sink) : Action Unit :=
  modify fun emitter =>
    { emitter with sink := some sink, openLoops := [], nextLabel := 1, lines := 0 }

/-- Fail if a loop is still open. -/
def checkClosed : Action Unit := do
  let count := (← get).openLoops.length
  if count ≠ 0 then throw (.loops (.unclosed count))

/-- Emit a whole program into a new sink. -/
def run (events : List Event) (sink : Sink) : Action Unit := do
  restart sink
  emitPrologue
  emitEvents 0 events
  checkClosed

/-- Lines emitted in two parts are emitted one part after the other. -/
theorem emitAll_append (first second : List Line) :
    emitAll (first ++ second) = (do emitAll first; emitAll second) := by
  induction first with
  | nil => rfl
  | cons line rest ih => simp [emitAll, ih]

/-- A positive whole number makes an emitter. -/
theorem create_int_of_pos {n : Int} (h : 0 < n.toNat) :
    create (.int n) = .ok (ofSize n.toNat h) := by
  simp only [create, dif_pos h]

/-- The text the sink holds, if there is a sink. -/
def text? (emitter : Emitter) : Option String := emitter.sink.map Sink.text

end Emitter

end TapeCompiler
