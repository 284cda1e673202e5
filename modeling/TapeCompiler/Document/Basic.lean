/-
# JSON documents

A text in a document may be built from escapes, so it is a list of code points
and may hold halves of surrogate pairs. The members of an object stand in the
order of their first mention.

Reading a document may fail. An error says what was expected and where, as a
line, a column and a number of characters; or that a whole number has too many
digits; or that there is no room for one more container inside the others.
-/

import TapeCompiler.Number.Binary64
import TapeCompiler.Number.Numeral

namespace TapeCompiler

open Number (Binary64)

/-- A JSON document. -/
inductive Document
  | null
  | bool (b : Bool)
  | int (n : Int)
  | float (x : Binary64)
  | text (codes : List Nat)
  | list (items : List Document)
  | object (members : List (List Nat × Document))

namespace Document

/-- What is wrong with a document. -/
inductive Flaw
  | byteOrderMark
  | expectingValue
  | expectingName
  | expectingColon
  | expectingComma
  | extraData
  | unterminatedText
  | controlCharacter
  | badEscape
  | badCodeEscape
  deriving DecidableEq, Repr

/-- The wording of a flaw. -/
def Flaw.message : Flaw → String
  | byteOrderMark => "Unexpected UTF-8 BOM (decode using utf-8-sig)"
  | expectingValue => "Expecting value"
  | expectingName => "Expecting property name enclosed in double quotes"
  | expectingColon => "Expecting ':' delimiter"
  | expectingComma => "Expecting ',' delimiter"
  | extraData => "Extra data"
  | unterminatedText => "Unterminated string starting at"
  | controlCharacter => "Invalid control character at"
  | badEscape => "Invalid \\escape"
  | badCodeEscape => "Invalid \\uXXXX escape"

/-- A document that has parts. -/
inductive Container
  | list
  | object
  deriving DecidableEq, Repr

/-- The message of a container that there is no room for. -/
def Container.tooDeepMessage (container : Container) : String :=
  "maximum recursion depth exceeded while decoding a JSON " ++
    (match container with
      | list => "array"
      | object => "object") ++ " from a unicode string"

/-- Why a text is no document. A flaw is placed by the characters that are left from there
on. -/
inductive ScanError
  | flaw (flaw : Flaw) (left : List Char)
  /-- A whole number has too many digits. -/
  | tooLong (digits : Nat)
  /-- A container opens inside too many others. -/
  | tooDeep (container : Container)

/-- Why a text is no document, with the place of the flaw. -/
inductive ReadError
  | flaw (flaw : Flaw) (line column position : Nat)
  | tooLong (digits : Nat)
  | tooDeep (container : Container)
  deriving DecidableEq, Repr

/-- The wording of an error. -/
def ReadError.message : ReadError → String
  | flaw found line column position =>
    found.message ++ ": line " ++ toString line ++ " column " ++ toString column ++
      " (char " ++ toString position ++ ")"
  | tooLong digits => Number.unreadableMessage digits
  | tooDeep container => container.tooDeepMessage

/-- The word for the kind of a document. -/
def kind : Document → String
  | null => "NoneType"
  | bool _ => "bool"
  | int _ => "int"
  | float _ => "float"
  | text _ => "str"
  | list _ => "list"
  | object _ => "dict"

/-- The value of a member. -/
def member? (name : String) (members : List (List Nat × Document)) : Option Document :=
  members.lookup (name.toList.map Char.toNat)

end Document

end TapeCompiler
