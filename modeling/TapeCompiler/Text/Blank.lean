/-
# Blanks around a numeral

A numeral may stand between blanks. Among the first 128 characters these are the
space and the five characters from tab to carriage return; the four separators
just below the space are not among them. Beyond, they are the white space of the
character database.
-/

namespace TapeCompiler.Text

/-- Whether a character may pad a numeral. -/
def isBlank (c : Char) : Bool :=
  let code := c.toNat
  code == 0x20 || (decide (0x09 ≤ code) && decide (code ≤ 0x0d)) ||
  code == 0x85 || code == 0xa0 || code == 0x1680 ||
  (decide (0x2000 ≤ code) && decide (code ≤ 0x200a)) ||
  code == 0x2028 || code == 0x2029 || code == 0x202f || code == 0x205f || code == 0x3000

end TapeCompiler.Text
