/-
# Assembly lines

The assembly text is a list of lines of a few fixed shapes. A line is kept as
what it says and turned into characters only at the end. Rendering fails only
for a number beyond the digit limit.

The text of a program is seven lines that set up the tape, then one block for
each instruction. Six instructions have a fixed block; the two brackets share a
label.
-/

import TapeCompiler.Instruction
import TapeCompiler.Number.Numeral

namespace TapeCompiler

/-- The registers that a system call reads, in the order they are loaded. -/
inductive Register
  | eax | ebx | ecx | edx | esi | edi
  deriving DecidableEq, Repr

namespace Register

/-- Every register, in the order they are loaded. -/
def all : List Register := [eax, ebx, ecx, edx, esi, edi]

/-- A load of a register from its slot behind the saved cursor; the slots are four bytes
apart. -/
def loadText : Register → String
  | eax => "  mov eax, [tape_ptr]"
  | ebx => "  mov ebx, [tape_ptr+4]"
  | ecx => "  mov ecx, [tape_ptr+8]"
  | edx => "  mov edx, [tape_ptr+12]"
  | esi => "  mov esi, [tape_ptr+16]"
  | edi => "  mov edi, [tape_ptr+20]"

end Register

/-- One line of assembly. -/
inductive Line
  /-- Start of the uninitialised data. -/
  | dataSection
  /-- Room for the saved cursor. -/
  | cursorSlot
  /-- Room for the tape. -/
  | tape (cells : Nat)
  /-- Start of the code. -/
  | codeSection
  /-- The entry point is visible to the linker. -/
  | exportEntry
  /-- The entry point. -/
  | entry
  /-- Put the cursor on a cell of the tape. -/
  | placeCursor (cell : Nat)
  | incCell
  | decCell
  | incCursor
  | decCursor
  /-- Save the cursor before a system call. -/
  | saveCursor
  /-- Load a register for a system call. -/
  | load (register : Register)
  /-- Make the system call. -/
  | systemCall
  /-- Keep what the system call answers. -/
  | saveAnswer
  /-- Restore the cursor after a system call. -/
  | restoreCursor
  | readCell
  /-- The target of a loop's jump. -/
  | label (id : Nat)
  /-- Jump back to a label unless the last result was zero. -/
  | jumpBack (id : Nat)
  deriving DecidableEq, Repr

/-- The name of a label. -/
def labelName? (id : Int) : Option String :=
  (Number.numeral? id).map fun digits => "label_" ++ digits

/-- The text of a line, without its line end. -/
def Line.render? : Line → Option String
  | dataSection => some "section .bss"
  | cursorSlot => some "  tape_ptr RESQ 1"
  | tape cells => (Number.numeral? cells).map fun digits => "  tape RESB " ++ digits
  | codeSection => some "section .text"
  | exportEntry => some "  global _start"
  | entry => some "_start:"
  | placeCursor cell => (Number.numeral? cell).map fun digits => "  mov EAX, tape+" ++ digits
  | incCell => some "  inc BYTE [EAX]"
  | decCell => some "  dec BYTE [EAX]"
  | incCursor => some "  inc EAX"
  | decCursor => some "  dec EAX"
  | saveCursor => some "  mov tape_ptr, eax"
  | load register => some register.loadText
  | systemCall => some "  int 0x80"
  | saveAnswer => some "  mov [tape_ptr], eax"
  | restoreCursor => some "  mov eax, tape_ptr"
  | readCell => some "  mov [eax], [[eax]]"
  | label id => (labelName? id).map fun name => name ++ ":"
  | jumpBack id => (labelName? id).map fun name => "  jne " ++ name

namespace Assembly

/-- The lines before the first instruction. The cursor starts in the middle of the tape. -/
def prologue (tapeSize : Nat) : List Line :=
  [.dataSection, .cursorSlot, .tape tapeSize, .codeSection, .exportEntry, .entry,
    .placeCursor (tapeSize / 2)]

/-- The block that makes a system call with the registers loaded from the tape. -/
def systemCallBlock : List Line :=
  [.saveCursor] ++ Register.all.map .load ++ [.systemCall, .saveAnswer, .restoreCursor]

/-- The fixed block of an instruction that is no bracket; brackets have none. -/
def simpleBlock : Instruction → List Line
  | .incCell => [.incCell]
  | .decCell => [.decCell]
  | .incCursor => [.incCursor]
  | .decCursor => [.decCursor]
  | .write => systemCallBlock
  | .read => [.readCell]
  | .loopStart => []
  | .loopEnd => []

@[simp]
theorem length_prologue (tapeSize : Nat) : (prologue tapeSize).length = 7 := rfl

@[simp]
theorem length_systemCallBlock : systemCallBlock.length = 10 := rfl

end Assembly

end TapeCompiler
