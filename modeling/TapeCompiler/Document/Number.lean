/-
# Numbers inside a document

A number is a whole part without leading zeros, then perhaps a fraction and an
exponent. With either of these it is a floating-point number, and without them a
whole number, which has to respect the digit limit. A point or an exponent mark
that no digit follows is not part of the number.
-/

import TapeCompiler.Document.Basic

namespace TapeCompiler.Document

open Number (Binary64)

/-- The digits of the whole part of a number: a zero alone, or digits that start with another
one. -/
def wholeDigits : List Char → List Char
  | '0' :: _ => ['0']
  | chars => chars.takeWhile Char.isDigit

/-- The digits behind a point, if the point has any. -/
def fractionDigits : List Char → List Char
  | '.' :: rest => rest.takeWhile Char.isDigit
  | _ => []

/-- An exponent: whether it is negative, its digits, and the number of characters before
them. -/
def exponentPart : List Char → Option (Bool × List Char × Nat)
  | mark :: rest =>
    if mark = 'e' ∨ mark = 'E' then
      let (negative, lead, digits) := match rest with
        | '-' :: tail => (true, 2, tail)
        | '+' :: tail => (false, 2, tail)
        | _ => (false, 1, rest)
      let run := digits.takeWhile Char.isDigit
      if run.isEmpty then none else some (negative, run, lead)
    else none
  | [] => none

/-- A number, read from behind its sign. `start` is where the number starts. -/
def scanNumber (start : List Char) (negative : Bool) (chars : List Char) :
    Except ScanError (Document × List Char) :=
  let whole := wholeDigits chars
  let afterWhole := chars.drop whole.length
  let fraction := fractionDigits afterWhole
  let afterFraction := if fraction.isEmpty then afterWhole else afterWhole.drop (fraction.length + 1)
  if whole.isEmpty then .error (.flaw .expectingValue start)
  else
    match exponentPart afterFraction with
    | some (down, digits, lead) =>
      let size : Int := Binary64.digitsValue digits
      .ok (.float (.ofLiteral negative whole fraction (if down then -size else size)),
        afterFraction.drop (lead + digits.length))
    | none =>
      if ¬ fraction.isEmpty then
        .ok (.float (.ofLiteral negative whole fraction 0), afterFraction)
      else if Number.digitLimit < whole.length then .error (.tooLong whole.length)
      else
        let size : Int := Binary64.digitsValue whole
        .ok (.int (if negative then -size else size), afterWhole)

end TapeCompiler.Document
