/-
# The cases that come with the compiler

Three small cases: straight-line code with input and output, a loop inside a
loop, and two loops in a row.
-/

import TapeCompiler.Golden.Run

namespace TapeCompiler.Golden

/-- A case as the texts of its files. -/
structure Sample where
  name : String
  program : String
  settings : String
  expected : String
  deriving DecidableEq, Repr

/-- Read a cell, set its neighbour, write the cell. -/
def echoCell : Sample where
  name := "echo_cell"
  program := "read a cell ,\nstep right > add two ++ step back <\nwrite it .\n"
  settings := "\x7b\x7d\n"
  expected := CommandLine.linesOf
    ["section .bss", "  tape_ptr RESQ 1", "  tape RESB 1048576", "section .text",
     "  global _start", "_start:", "  mov EAX, tape+524288", "  mov [eax], [[eax]]",
     "  inc EAX", "  inc BYTE [EAX]", "  inc BYTE [EAX]", "  dec EAX", "  mov tape_ptr, eax",
     "  mov eax, [tape_ptr]", "  mov ebx, [tape_ptr+4]", "  mov ecx, [tape_ptr+8]",
     "  mov edx, [tape_ptr+12]", "  mov esi, [tape_ptr+16]", "  mov edi, [tape_ptr+20]",
     "  int 0x80", "  mov [tape_ptr], eax", "  mov eax, tape_ptr"]

/-- Clear a cell inside a loop. -/
def nestedLoops : Sample where
  name := "nested_loops"
  program := "outer loop [\n  clear inner cell [-]\n  bump +\n]\n"
  settings := "\x7b\"tape_size\": 1024\x7d\n"
  expected := CommandLine.linesOf
    ["section .bss", "  tape_ptr RESQ 1", "  tape RESB 1024", "section .text",
     "  global _start", "_start:", "  mov EAX, tape+512", "label_1:", "label_2:",
     "  dec BYTE [EAX]", "  jne label_2", "  inc BYTE [EAX]", "  jne label_1"]

/-- Clear two cells, one after the other. -/
def sequentialLoops : Sample where
  name := "sequential_loops"
  program := "[-]>[-]\n"
  settings := "\x7b\"tape_size\": 16\x7d\n"
  expected := CommandLine.linesOf
    ["section .bss", "  tape_ptr RESQ 1", "  tape RESB 16", "section .text",
     "  global _start", "_start:", "  mov EAX, tape+8", "label_1:", "  dec BYTE [EAX]",
     "  jne label_1", "  inc EAX", "label_2:", "  dec BYTE [EAX]", "  jne label_2"]

/-- The entries of a case below the directory of all cases. -/
def Sample.entries (sample : Sample) : List (Location × Node) :=
  let directory := ["golden", sample.name]
  let file := fun name text => (directory ++ [name], Node.file (Text.encodeUtf8 text))
  [(directory, .directory), file programFile sample.program,
    file settingsFile sample.settings, file expectedFile sample.expected]

/-- The three cases. -/
def samples : List Sample := [echoCell, nestedLoops, sequentialLoops]

/-- A store that holds the three cases. -/
def sampleStore : Store where
  entries := (["golden"], .directory) :: samples.flatMap Sample.entries
  workingDirectory := []

-- Every sample is in step: it compiles to the text of its expected file.
example : ∀ sample ∈ samples,
    (actual sampleStore goldenDirectory sample.name).toOption = some sample.expected := by
  decide +kernel

end TapeCompiler.Golden
