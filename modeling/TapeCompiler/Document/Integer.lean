/-
# Documents that stand for whole numbers

A setting that wants a whole number takes more than that: a text that is read as
one, a floating-point number, which is cut, and a truth value.
-/

import TapeCompiler.Document.Basic

namespace TapeCompiler.Document

/-- The characters of code points; a half of a surrogate pair gives the replacement
character. -/
def charsOf (codes : List Nat) : List Char :=
  codes.map fun code => if code.isValidChar then Char.ofNat code else '\ufffd'

/-- Why a document is no whole number. -/
inductive IntegerError
  /-- A document of this kind never is. -/
  | wrongKind (kind : String)
  | malformed (codes : List Nat)
  | tooLong (digits : Nat)
  | infinite
  | nan
  deriving DecidableEq, Repr

/-- The greatest number of characters of a quoted text that the wording shows. -/
def shownLimit : Nat := 200

/-- The wording of the refusal. -/
def IntegerError.message : IntegerError → String
  | wrongKind kind =>
    "int() argument must be a string, a bytes-like object or a real number, not '" ++ kind ++ "'"
  | malformed codes =>
    "invalid literal for int() with base 10: " ++
      String.ofList ((Text.quoteCodes codes).toList.take shownLimit)
  | tooLong digits => Number.unreadableMessage digits
  | infinite => "cannot convert float infinity to integer"
  | nan => "cannot convert float NaN to integer"

/-- The whole number a document stands for. Floating-point numbers are cut, and truth values are
zero and one. -/
def toInteger (document : Document) : Except IntegerError Int :=
  match document with
  | int n => .ok n
  | bool b => .ok (if b then 1 else 0)
  | float .nan => .error .nan
  | float x =>
    match x.truncate? with
    | some n => .ok n
    | none => .error .infinite
  | text codes =>
    match Number.readChars (charsOf codes) with
    | .value n => .ok n
    | .tooLong digits => .error (.tooLong digits)
    | .malformed => .error (.malformed codes)
  | other => .error (.wrongKind other.kind)

end TapeCompiler.Document
