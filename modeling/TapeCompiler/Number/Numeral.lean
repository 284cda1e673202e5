/-
# Whole numbers as text

A whole number is written in decimal, but only up to a limit on its digits;
beyond the limit the conversion fails, in either direction. Reading allows
blanks around the numeral, a sign, digits of any script, and single underscores
between digits. Leading zeros count towards the limit.
-/

import TapeCompiler.Text.Blank
import TapeCompiler.Text.Digit
import TapeCompiler.Text.Quoted

namespace TapeCompiler.Number

/-- The greatest number of decimal digits that a conversion handles. -/
def digitLimit : Nat := 4300

/-- A number has at most `digitLimit` digits. -/
def Writable (n : Int) : Prop := n.natAbs < Nat.pow 10 digitLimit

instance (n : Int) : Decidable (Writable n) :=
  inferInstanceAs (Decidable (n.natAbs < Nat.pow 10 digitLimit))

/-- The decimal text of a number within the limit. -/
def numeral? (n : Int) : Option String :=
  if Writable n then some (toString n) else none

/-- The message of a number too long to be written. -/
def unwritableMessage : String :=
  "Exceeds the limit (4300 digits) for integer string conversion; " ++
    "use sys.set_int_max_str_digits() to increase the limit"

/-- The message of a numeral too long to be read. -/
def unreadableMessage (digits : Nat) : String :=
  "Exceeds the limit (4300 digits) for integer string conversion: value has " ++
    toString digits ++ " digits; use sys.set_int_max_str_digits() to increase the limit"

/-! ## Reading -/

/-- What a text read as a whole number gives. -/
inductive Reading
  /-- The text denotes this number. -/
  | value (n : Int)
  /-- The text starts as a numeral with this many digits, more than the limit. -/
  | tooLong (digits : Nat)
  /-- The text is no numeral. -/
  | malformed
  deriving DecidableEq, Repr

/-- Whether a character is a decimal digit. -/
def isDigit (c : Char) : Bool := (Text.digitValue? c).isSome

/-- Whether a character may stand in the digit part of a numeral. -/
def isDigitOrJoint (c : Char) : Bool := isDigit c || c == '_'

/-- No two underscores stand side by side and none ends the text. -/
def jointsInside : List Char → Bool
  | [] => true
  | [c] => c != '_'
  | c :: d :: rest => !(c == '_' && d == '_') && jointsInside (d :: rest)

/-- Digits with single underscores between them, and at least one digit. -/
def isDigitRun (run : List Char) : Bool :=
  match run with
  | [] => false
  | c :: _ => c != '_' && jointsInside run

/-- The number a list of digit values denotes, the leading digit first. -/
def ofDigitValues (values : List Nat) : Nat :=
  values.foldl (fun total value => 10 * total + value) 0

/-- A sign, if there is one, split from what follows; `true` is the minus sign. -/
def splitSign : List Char → Bool × List Char
  | '-' :: rest => (true, rest)
  | '+' :: rest => (false, rest)
  | chars => (false, chars)

/-- The whole number a text denotes. The limit is checked before what stands behind the
digits. -/
def readChars (chars : List Char) : Reading :=
  let (negative, body) := splitSign (chars.dropWhile Text.isBlank)
  let run := body.takeWhile isDigitOrJoint
  let rest := body.dropWhile isDigitOrJoint
  let values := run.filterMap Text.digitValue?
  if isDigitRun run then
    if digitLimit < values.length then .tooLong values.length
    else if rest.all Text.isBlank then
      let size : Int := ofDigitValues values
      .value (if negative then -size else size)
    else .malformed
  else .malformed

/-- The whole number a text denotes. -/
def read (text : String) : Reading := readChars text.toList

/-! ## Positive numbers -/

/-- Why a text is refused where a positive number is wanted. -/
inductive PositiveError
  | malformed (text : String)
  | notPositive (value : Int)
  deriving DecidableEq, Repr

/-- The wording of the refusal. -/
def PositiveError.message : PositiveError → String
  | malformed text => "invalid int value: " ++ Text.quote text
  | notPositive value => "must be positive: " ++ toString value

/-- The positive number a text denotes. -/
def readPositive (text : String) : Except PositiveError Nat :=
  match read text with
  | .value n => if 0 < n then .ok n.toNat else .error (.notPositive n)
  | _ => .error (.malformed text)

/-- A number that was read is positive. -/
theorem pos_of_readPositive_eq_ok {text : String} {n : Nat} (h : readPositive text = .ok n) :
    0 < n := by
  unfold readPositive at h
  split at h
  · split at h
    · injection h with h
      omega
    · cases h
  · cases h

end TapeCompiler.Number
