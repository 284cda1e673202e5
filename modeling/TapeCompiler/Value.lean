/-
# Values of any kind

Some inputs have no fixed type: the size of the tape as a caller gives it, and
the items of a source sequence. Such a value is shown in messages in one
notation, which fails only for a whole number beyond the digit limit.
-/

import TapeCompiler.Number.Binary64
import TapeCompiler.Number.Numeral

namespace TapeCompiler

open Number (Binary64)

/-- A value whose kind is known only when it is met. -/
inductive Value
  | none
  | bool (b : Bool)
  | int (n : Int)
  | float (x : Binary64)
  | text (s : String)
  | list (items : List Value)

namespace Value

mutual

/-- A value as messages show it; `none` when a number in it is too long to be written. -/
def shown? : Value → Option String
  | none => some "None"
  | bool b => some (if b then "True" else "False")
  | int n => Number.numeral? n
  | float x => some x.text
  | text s => some (Text.quote s)
  | list [] => some "[]"
  | list (first :: rest) => do
    let head ← shown? first
    let tail ← shownRest? rest
    return "[" ++ head ++ tail ++ "]"

/-- The items behind the first one, each with the comma before it. -/
def shownRest? : List Value → Option String
  | [] => some ""
  | item :: rest => do
    let head ← shown? item
    let tail ← shownRest? rest
    return ", " ++ head ++ tail

end

end Value

end TapeCompiler
