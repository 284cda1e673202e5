/-
# Text between quotes

Messages show a text between quotes. The quote is an apostrophe, unless the text
holds an apostrophe and no double quote. The quote in use, the backslash and
every character that is not printable are written as escapes, so a quoted text
is one line and tells its characters apart.

Text is taken by code points here, since a text read from escapes may hold halves
of surrogate pairs, which are no characters.
-/

import TapeCompiler.Text.Printable

namespace TapeCompiler.Text

/-- A hexadecimal digit. -/
def hexDigit (value : Nat) : Char :=
  if value < 10 then Char.ofNat (48 + value) else Char.ofNat (87 + value)

/-- The last `width` hexadecimal digits of a number. -/
def hexDigits (width value : Nat) : List Char :=
  (List.range width).reverse.map fun place => hexDigit (value / Nat.pow 16 place % 16)

/-- One code point inside quotes. -/
def escape (mark : Char) (code : Nat) : List Char :=
  if code = mark.toNat ∨ code = 0x5c then ['\\', Char.ofNat code]
  else if code = 0x09 then ['\\', 't']
  else if code = 0x0a then ['\\', 'n']
  else if code = 0x0d then ['\\', 'r']
  else if isPrintable code then [Char.ofNat code]
  else if code < 0x100 then '\\' :: 'x' :: hexDigits 2 code
  else if code < 0x10000 then '\\' :: 'u' :: hexDigits 4 code
  else '\\' :: 'U' :: hexDigits 8 code

/-- The quote a text is put between. -/
def quoteMark (codes : List Nat) : Char :=
  if codes.contains 0x27 && !codes.contains 0x22 then '"' else '\''

/-- Code points between quotes. -/
def quoteCodes (codes : List Nat) : String :=
  let mark := quoteMark codes
  String.ofList (mark :: codes.flatMap (escape mark) ++ [mark])

/-- A text between quotes. -/
def quote (text : String) : String :=
  quoteCodes (text.toList.map Char.toNat)

end TapeCompiler.Text
