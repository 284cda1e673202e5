/-
# Texts inside a document

A text stands between double quotes and holds no control character. A backslash
starts an escape: a letter, or four hexadecimal digits for a code point. Two such
escapes in a row that are the halves of a surrogate pair make one code point.
-/

import TapeCompiler.Document.Basic

namespace TapeCompiler.Document

/-- The value of a hexadecimal digit. -/
def hexValue? (c : Char) : Option Nat :=
  if '0' ≤ c ∧ c ≤ '9' then some (c.toNat - 48)
  else if 'a' ≤ c ∧ c ≤ 'f' then some (c.toNat - 87)
  else if 'A' ≤ c ∧ c ≤ 'F' then some (c.toNat - 55)
  else none

/-- The number that four hexadecimal digits denote, when at least one character follows them. -/
def fourHex? : List Char → Option Nat
  | a :: b :: c :: d :: _ :: _ => do
    return (((← hexValue? a) * 16 + (← hexValue? b)) * 16 + (← hexValue? c)) * 16 + (← hexValue? d)
  | _ => none

/-- The code point of a one-letter escape. -/
def letterEscape? : Char → Option Nat
  | '"' => some 0x22
  | '\\' => some 0x5c
  | '/' => some 0x2f
  | 'b' => some 0x08
  | 'f' => some 0x0c
  | 'n' => some 0x0a
  | 'r' => some 0x0d
  | 't' => some 0x09
  | _ => none

/-- Whether a number is the first half of a surrogate pair. -/
def isHighHalf (code : Nat) : Bool := decide (0xd800 ≤ code) && decide (code ≤ 0xdbff)

/-- Whether a number is the second half of a surrogate pair. -/
def isLowHalf (code : Nat) : Bool := decide (0xdc00 ≤ code) && decide (code ≤ 0xdfff)

/-- The code point of a surrogate pair. -/
def joinHalves (high low : Nat) : Nat := 0x10000 + (high - 0xd800) * 0x400 + (low - 0xdc00)

/-- The code point behind the letter of a numbered escape, and the number of characters it
takes. A first half of a surrogate pair is joined to a second half that follows as an escape of
its own. -/
def codeEscape (digits : List Char) : Except ScanError (Nat × Nat) :=
  match fourHex? digits with
  | none => .error (.flaw .badCodeEscape ('u' :: digits))
  | some code =>
    match isHighHalf code, digits.drop 4 with
    | true, '\\' :: 'u' :: second =>
      if (second.drop 4).isEmpty then .ok (code, 4)
      else
        match fourHex? second with
        | none => .error (.flaw .badCodeEscape ('u' :: second))
        | some low => .ok (if isLowHalf low then (joinHalves code low, 10) else (code, 4))
    | _, _ => .ok (code, 4)

/-- The code points of a text up to its closing quote, and what follows. `opening` is where the
text starts, and `done` holds the code points before, the latest first. -/
def scanText (opening : List Char) (done : List Nat) (chars : List Char) :
    Except ScanError (List Nat × List Char) :=
  match chars with
  | [] => .error (.flaw .unterminatedText opening)
  | '"' :: rest => .ok (done.reverse, rest)
  | ['\\'] => .error (.flaw .unterminatedText opening)
  | '\\' :: 'u' :: digits =>
    match codeEscape digits with
    | .error error => .error error
    | .ok (code, used) => scanText opening (code :: done) (digits.drop used)
  | '\\' :: letter :: rest =>
    match letterEscape? letter with
    | some code => scanText opening (code :: done) rest
    | none => .error (.flaw .badEscape chars)
  | c :: rest =>
    if c.toNat ≤ 0x1f then .error (.flaw .controlCharacter chars)
    else scanText opening (c.toNat :: done) rest
termination_by chars.length
decreasing_by
  all_goals simp only [List.length_cons, List.length_drop]
  all_goals omega

end TapeCompiler.Document
