/-
# Lines

A text falls into lines behind each line end, and the line ends stay with their
lines, so the lines put together give the text back. Line ends are the line feed,
the carriage return, the two in a row, and the other separators that the character
database counts among them.

Text files are read with the carriage return, alone or before a line feed, turned
into a line feed.
-/

namespace TapeCompiler.Text

/-- Whether a character ends a line. -/
def isLineEnd (c : Char) : Bool :=
  let code := c.toNat
  (decide (0x0a ≤ code) && decide (code ≤ 0x0d)) ||
    (decide (0x1c ≤ code) && decide (code ≤ 0x1e)) ||
    code == 0x85 || code == 0x2028 || code == 0x2029

/-- The lines of the characters to come, behind a line begun already, whose latest character comes
first, and the lines finished before it, the latest of which comes first. -/
def splitFrom (finished : List String) (line : List Char) : List Char → List String
  | [] => (if line.isEmpty then finished else String.ofList line.reverse :: finished).reverse
  | '\r' :: '\n' :: rest =>
    splitFrom (String.ofList ('\n' :: '\r' :: line).reverse :: finished) [] rest
  | c :: rest =>
    if isLineEnd c then splitFrom (String.ofList (c :: line).reverse :: finished) [] rest
    else splitFrom finished (c :: line) rest

/-- The lines of a text, each with its line end. -/
def splitLines (text : String) : List String := splitFrom [] [] text.toList

theorem toList_join_splitFrom (finished : List String) (line chars : List Char) :
    (String.join (splitFrom finished line chars)).toList =
      (String.join finished.reverse).toList ++ line.reverse ++ chars := by
  fun_induction splitFrom finished line chars with
  | case1 finished line =>
    cases line <;> simp
  | case2 finished line rest ih =>
    rw [ih]
    simp
  | case3 finished line c rest _ _ ih =>
    rw [ih]
    simp
  | case4 finished line c rest _ _ ih =>
    rw [ih]
    simp

/-- The lines of a text put together are the text. -/
theorem join_splitLines (text : String) : String.join (splitLines text) = text := by
  apply String.toList_injective
  rw [splitLines, toList_join_splitFrom]
  simp

/-- Characters with carriage returns turned into line feeds, behind those done already, whose
latest comes first. -/
def unifyFrom (done : List Char) : List Char → List Char
  | [] => done.reverse
  | '\r' :: '\n' :: rest => unifyFrom ('\n' :: done) rest
  | '\r' :: rest => unifyFrom ('\n' :: done) rest
  | c :: rest => unifyFrom (c :: done) rest

/-- A text with carriage returns, alone or before a line feed, turned into line feeds. -/
def unifyLineEnds (text : String) : String := String.ofList (unifyFrom [] text.toList)

end TapeCompiler.Text
