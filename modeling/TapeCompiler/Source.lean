/-
# Sources and the instructions in them

A source is text, bytes, or a sequence of values. Read item by item it gives
instructions, skipping what is comment. Text and bytes never fail. A sequence
fails at its first bad item: a list, or a number that is no code point. What
stands before the bad item has been read by then, so a source is seen as a list
of events, instructions and at most one fault, the fault last.

The faults are those that reading finds in an item. A sequence whose caller makes
it fail when the next item is asked for is outside this model; were that a failure
of the file system, compiling would report it as one of the output file.
-/

import TapeCompiler.Instruction
import TapeCompiler.Value

namespace TapeCompiler

/-- Why an item of a source cannot be read. -/
inductive SourceFault
  /-- A list stands where a character is wanted. -/
  | listItem
  /-- A number does not fit 32 bits with sign. -/
  | beyondWord
  /-- A number is no code point. -/
  | noCodePoint
  deriving DecidableEq, Repr

/-- The wording of a fault. -/
def SourceFault.message : SourceFault → String
  | listItem => "unhashable type: 'list'"
  | beyondWord => "Python int too large to convert to C int"
  | noCodePoint => "chr() arg not in range(0x110000)"

namespace Instruction

/-- The instruction a code point stands for. Halves of surrogate pairs stand for none. -/
def ofCode? (code : Nat) : Option Instruction :=
  if code < 128 then ofChar? (Char.ofNat code) else none

/-- The instructions of a text. -/
def ofText (text : String) : List Instruction :=
  text.toList.filterMap ofChar?

/-- The instructions of a run of bytes, each byte taken as a code point. -/
def ofBytes (bytes : List UInt8) : List Instruction :=
  bytes.filterMap fun byte => ofCode? byte.toNat

@[simp]
theorem ofText_append (first second : String) :
    ofText (first ++ second) = ofText first ++ ofText second := by
  simp [ofText]

@[simp]
theorem ofBytes_append (first second : List UInt8) :
    ofBytes (first ++ second) = ofBytes first ++ ofBytes second := by
  simp [ofBytes]

/-- Writing instructions as text and reading the text gives them back. -/
@[simp]
theorem ofText_sourceOf (codes : List Instruction) : ofText (sourceOf codes) = codes := by
  simp only [ofText, sourceOf, String.toList_ofList]
  induction codes with
  | nil => rfl
  | cons code rest ih => simp [ih]

end Instruction

/-- The instruction of one whole number taken as a code point. -/
def readCode (n : Int) : Except SourceFault (Option Instruction) :=
  if n < -2147483648 ∨ 2147483647 < n then .error .beyondWord
  else if n < 0 ∨ 0x110000 ≤ n then .error .noCodePoint
  else .ok (Instruction.ofCode? n.toNat)

/-- The instruction of one item, if it has one. -/
def Value.read : Value → Except SourceFault (Option Instruction)
  | none => .ok .none
  | bool b => readCode (if b then 1 else 0)
  | int n => readCode n
  | float _ => .ok .none
  | text s => .ok (Instruction.ofText? s)
  | list _ => .error .listItem

/-- A source of instructions. -/
inductive Source
  | text (s : String)
  | bytes (b : List UInt8)
  | items (values : List Value)

/-- What reading a source meets: an instruction, or the fault that ends it. -/
abbrev Event := Except SourceFault Instruction

namespace Source

/-- The events of a sequence of items, up to the first fault. -/
def eventsOfItems : List Value → List Event
  | [] => []
  | item :: rest =>
    match item.read with
    | .error fault => [.error fault]
    | .ok none => eventsOfItems rest
    | .ok (some instruction) => .ok instruction :: eventsOfItems rest

/-- The events of a source, in order. -/
def events : Source → List Event
  | text s => (Instruction.ofText s).map .ok
  | bytes b => (Instruction.ofBytes b).map .ok
  | items values => eventsOfItems values

/-- All instructions of a sequence of items; one bad item spoils it. -/
def filterItems : List Value → Except SourceFault (List Instruction)
  | [] => .ok []
  | item :: rest => do
    let found ← item.read
    let others ← filterItems rest
    return found.toList ++ others

/-- Where nothing fails, reading item by item meets all instructions and no fault. -/
theorem eventsOfItems_of_filterItems {values : List Value} {codes : List Instruction}
    (h : filterItems values = .ok codes) : eventsOfItems values = codes.map .ok := by
  induction values generalizing codes with
  | nil =>
    cases h
    rfl
  | cons item rest ih =>
    cases read : item.read with
    | error fault => simp [filterItems, read, bind, Except.bind] at h
    | ok found =>
      cases others : filterItems rest with
      | error fault => simp [filterItems, read, others, bind, Except.bind] at h
      | ok tail =>
        simp only [filterItems, read, others, bind, Except.bind, pure, Except.pure,
          Except.ok.injEq] at h
        subst h
        cases found <;> simp [eventsOfItems, read, ih others]

/-- All instructions of a source. -/
def filter : Source → Except SourceFault (List Instruction)
  | text s => .ok (Instruction.ofText s)
  | bytes b => .ok (Instruction.ofBytes b)
  | items values => filterItems values

/-- What a consumer sees who stops once it has `limit` instructions: those instructions, and
the fault if it came to it. Without a limit it goes to the end. -/
def consume : Option Nat → List Event → List Instruction × Option SourceFault
  | some 0, _ => ([], none)
  | _, [] => ([], none)
  | _, .error fault :: _ => ([], some fault)
  | limit, .ok instruction :: rest =>
    let (others, fault) := consume (limit.map Nat.pred) rest
    (instruction :: others, fault)

/-- Where nothing fails, the events of a source are its instructions. -/
theorem events_of_filter {source : Source} {codes : List Instruction}
    (h : source.filter = .ok codes) : source.events = codes.map .ok := by
  cases source with
  | text s =>
    cases h
    rfl
  | bytes b =>
    cases h
    rfl
  | items values => exact eventsOfItems_of_filterItems h

end Source

end TapeCompiler
