/-
# Lines and the text they make

A line whose numbers are within the digit limit always has a text, and the text
of several lines is each of them followed by a line feed. No line has a line feed
of its own, since the fixed parts have none and a numeral is all digits. So the
lines can be read back from the text.
-/

import TapeCompiler.Assembly

namespace TapeCompiler

namespace Number

theorem Writable.of_le {m n : Nat} (h : Writable n) (hle : m ≤ n) : Writable m :=
  Nat.lt_of_le_of_lt hle h

theorem Writable.toNat {n : Int} (h : Writable n) (hpos : 1 ≤ n) : Writable n.toNat := by
  rwa [Int.toNat_of_nonneg (by omega)]

/-- A natural number within the limit is written in decimal. -/
theorem numeral?_natCast {n : Nat} (h : Writable n) : numeral? n = some (toString n) := by
  rw [numeral?, if_pos h]
  rfl

theorem toNat_of_isDigit {c : Char} (h : c.isDigit = true) : 48 ≤ c.toNat ∧ c.toNat ≤ 57 := by
  simpa [Char.isDigit, UInt32.le_iff_toNat_le] using h

/-- A character that is no digit does not occur in a numeral. -/
theorem notMem_toDigits {c : Char} (h : c.isDigit = false) (n : Nat) :
    c ∉ Nat.toDigits 10 n := by
  intro hmem
  have hdigit := Nat.isDigit_of_mem_toDigits (by decide) (by decide) hmem
  rw [h] at hdigit
  exact Bool.false_ne_true hdigit

end Number

namespace Assembly

/-- The name of a label, however long its number is. -/
def nameOf (id : Nat) : String := "label_" ++ toString id

/-- The text before the name in a line that jumps. -/
def jumpText : String := "  jne "

theorem labelName?_natCast {id : Nat} (h : Number.Writable id) :
    labelName? (id : Int) = some (nameOf id) := by
  rw [labelName?, Number.numeral?_natCast h]
  rfl

theorem nameOf_injective {first second : Nat} (h : nameOf first = nameOf second) :
    first = second := by
  -- A numeral can be read back, so equal names have equal numbers.
  have hdigits : Nat.toDigits 10 first = Nat.toDigits 10 second := by
    simpa [nameOf] using congrArg String.toList h
  rw [← Nat.ofDigitChars_ten_toDigits (n := first), hdigits, Nat.ofDigitChars_ten_toDigits]

end Assembly

namespace Line

open Assembly

/-- The numbers in a line are within the digit limit. -/
def Writable : Line → Prop
  | tape n | placeCursor n | label n | jumpBack n => Number.Writable n
  | _ => True

/-- The text of a line, however long its numbers are. -/
def text : Line → String
  | tape cells => "  tape RESB " ++ toString cells
  | placeCursor cell => "  mov EAX, tape+" ++ toString cell
  | label id => nameOf id ++ ":"
  | jumpBack id => jumpText ++ nameOf id
  | line => line.render?.getD ""

theorem text_label (id : Nat) : (label id).text = nameOf id ++ ":" := rfl

theorem text_jumpBack (id : Nat) : (jumpBack id).text = jumpText ++ nameOf id := rfl

theorem text_placeCursor (cell : Nat) :
    (placeCursor cell).text = "  mov EAX, tape+" ++ toString cell := rfl

theorem render?_eq_some_text {line : Line} (h : line.Writable) :
    line.render? = some line.text := by
  cases line with
  | tape n | placeCursor n =>
    rw [render?, Number.numeral?_natCast h]
    rfl
  | label id | jumpBack id =>
    rw [render?, labelName?_natCast h]
    rfl
  | _ => rfl

/-- Lines hold no control characters. -/
theorem notMem_text_of_lt {c : Char} (h : c.toNat < 32) (line : Line) : c ∉ line.text.toList := by
  have hapart : ∀ other : Char, 32 ≤ other.toNat → c ≠ other := by
    rintro other hother rfl
    omega
  have hdigits : ∀ n, c ∉ Nat.toDigits 10 n := by
    intro n hmem
    have hdigit := Nat.isDigit_of_mem_toDigits (by decide) (by decide) hmem
    have hrange := Number.toNat_of_isDigit hdigit
    omega
  unfold text
  cases line with
  | tape n | placeCursor n | label n | jumpBack n => simp [nameOf, jumpText, hdigits n, hapart]
  | load register => cases register <;> simp [render?, Register.loadText, hapart]
  | _ => simp [render?, hapart]

theorem newline_notMem_text (line : Line) : '\n' ∉ line.text.toList :=
  line.notMem_text_of_lt (by decide)

end Line

namespace Assembly

/-- The text of lines, each ended by a line feed. -/
def textOf (lines : List Line) : String :=
  String.join (lines.map fun line => line.text ++ "\n")

/-- The writes that lines make, in order: each line, then its line end. -/
def writesOf (lines : List Line) : List String :=
  lines.flatMap fun line => [line.text, "\n"]

/-- The lines of a text, without the line feeds that end them. -/
def linesIn (text : String) : List String :=
  (text.toList.splitOn '\n').dropLast.map String.ofList

@[simp] theorem textOf_nil : textOf [] = "" := rfl

@[simp] theorem textOf_cons (line : Line) (rest : List Line) :
    textOf (line :: rest) = line.text ++ "\n" ++ textOf rest := by
  simp [textOf]

@[simp] theorem textOf_append (first second : List Line) :
    textOf (first ++ second) = textOf first ++ textOf second := by
  simp [textOf]

@[simp] theorem writesOf_append (first second : List Line) :
    writesOf (first ++ second) = writesOf first ++ writesOf second := by
  simp [writesOf]

theorem join_writesOf (lines : List Line) : String.join (writesOf lines) = textOf lines := by
  induction lines with
  | nil => rfl
  | cons line rest ih =>
    rw [textOf_cons, ← ih]
    simp [writesOf, String.append_assoc]

theorem splitOn_textOf (lines : List Line) :
    (textOf lines).toList.splitOn '\n' = lines.map (fun line => line.text.toList) ++ [[]] := by
  induction lines with
  | nil => rfl
  | cons line rest ih =>
    -- The first line has no line feed of its own, so it ends at the first one.
    have hsplit := List.splitOn_append_cons_self_of_not_mem line.newline_notMem_text
      (textOf rest).toList
    rw [ih] at hsplit
    simpa [String.toList_append] using hsplit

/-- The lines of the text of lines are their texts. -/
theorem linesIn_textOf (lines : List Line) : linesIn (textOf lines) = lines.map Line.text := by
  rw [linesIn, splitOn_textOf, List.dropLast_concat, List.map_map]
  refine List.map_congr_left fun line _ => ?_
  rw [Function.comp_apply, String.ofList_toList]

end Assembly

end TapeCompiler
