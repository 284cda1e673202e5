/-
# Floating-point literals

A literal is a sign, digits with at most one point among them, and an exponent;
sign, point and exponent may be missing, and one digit has to be there. Words
stand for the infinities and for what is not a number. As for a whole number,
blanks may stand around a literal, the digits may be of any script, and a single
underscore may stand between two digits.
-/

import TapeCompiler.Number.Binary64
import TapeCompiler.Number.Numeral

namespace TapeCompiler.Number.Binary64

/-- A text without the blanks around it. -/
def trimBlanks (chars : List Char) : List Char :=
  ((chars.dropWhile Text.isBlank).reverse.dropWhile Text.isBlank).reverse

/-- A digit of any script as the digit of the same value between `0` and `9`; every other
character stays. -/
def plainDigit (c : Char) : Char :=
  match Text.digitValue? c with
  | some value => Char.ofNat ('0'.toNat + value)
  | none => c

/-- A text without its underscores, each of which has to stand between two digits. `afterDigit`
says whether a digit comes right before the text. -/
def dropJoints? (afterDigit : Bool) : List Char → Option (List Char)
  | [] => some []
  | c :: rest =>
    if c = '_' then
      if afterDigit && rest.head?.any Char.isDigit then dropJoints? false rest else none
    else (dropJoints? c.isDigit rest).map (c :: ·)

/-- An exponent mark with its signed digits; what does not fit is no exponent. -/
def exponentOf? : List Char → Option Int
  | [] => some 0
  | mark :: rest =>
    if mark = 'e' ∨ mark = 'E' then
      let (negative, digits) := splitSign rest
      if digits.isEmpty ∨ ¬ digits.all Char.isDigit then none
      else some (if negative then -(digitsValue digits : Int) else digitsValue digits)
    else none

/-- The number an unsigned literal denotes: digits with at most one point among them and at
least one digit, then perhaps an exponent; or one of the words for the special values. -/
def ofUnsigned? (negative : Bool) (literal : List Char) : Option Binary64 :=
  let word := String.ofList (literal.map Char.toLower)
  if word = "nan" then some nan
  else if word = "inf" ∨ word = "infinity" then some (infinite negative)
  else
    let whole := literal.takeWhile Char.isDigit
    let afterWhole := literal.dropWhile Char.isDigit
    let (fraction, tail) := match afterWhole with
      | '.' :: rest => (rest.takeWhile Char.isDigit, rest.dropWhile Char.isDigit)
      | _ => ([], afterWhole)
    if whole.isEmpty ∧ fraction.isEmpty then none
    else (exponentOf? tail).map (ofLiteral negative whole fraction)

/-- The number a literal without blanks and underscores denotes. -/
def ofSigned? (literal : List Char) : Option Binary64 :=
  let (negative, body) := splitSign literal
  ofUnsigned? negative body

/-- The number a literal denotes. -/
def ofText? (literal : String) : Option Binary64 :=
  (dropJoints? false ((trimBlanks literal.toList).map plainDigit)).bind ofSigned?

end TapeCompiler.Number.Binary64
