/-
# Reading a document

A document is one value with nothing but spaces around it. Reading is strict
about structure and accepts `NaN` and the infinities as numbers. When a name
occurs twice in an object its last value counts. A container that there is no
room for ends the reading at once, whatever follows.
-/

import TapeCompiler.Document.Number
import TapeCompiler.Document.Text

namespace TapeCompiler.Document

/-- Whether a character may stand between the parts of a document. -/
def isSpace (c : Char) : Bool := c == ' ' || c == '\t' || c == '\n' || c == '\r'

/-- What follows the spaces at the start. -/
def skipSpaces (chars : List Char) : List Char := chars.dropWhile isSpace

/-- A word at the start of a text, and what follows it. -/
def afterWord? (word : String) (chars : List Char) : Option (List Char) :=
  if word.toList.isPrefixOf chars then some (chars.drop word.length) else none

/-- The words that are values, each with its value. -/
def words : List (String × Document) :=
  [("null", .null), ("true", .bool true), ("false", .bool false), ("NaN", .float .nan),
    ("Infinity", .float (.infinite false)), ("-Infinity", .float (.infinite true))]

/-- A value that has no parts. -/
def scanScalar (chars : List Char) : Except ScanError (Document × List Char) :=
  match words.findSome? fun word => (afterWord? word.1 chars).map fun rest => (word.2, rest) with
  | some result => .ok result
  | none =>
    match chars with
    | '-' :: rest => scanNumber chars true rest
    | _ => scanNumber chars false chars

/-- An object with a member set; a member of the same name keeps its place. -/
def setMember (name : List Nat) (value : Document) :
    List (List Nat × Document) → List (List Nat × Document)
  | [] => [(name, value)]
  | member :: rest =>
    if member.1 = name then (name, value) :: rest else member :: setMember name value rest

mutual

/-- A value at the start of a text, and what follows it. `room` is the number of containers that
may still open inside one another. Each step down or along takes a character, so as many steps as
there are characters are enough. -/
def scanValue (room : Nat) : Nat → List Char → Except ScanError (Document × List Char)
  | 0, chars => .error (.flaw .expectingValue chars)
  | steps + 1, chars =>
    match chars with
    | '"' :: rest => do
      let (codes, rest) ← scanText chars [] rest
      return (.text codes, rest)
    | '{' :: rest =>
      -- The room is looked at where a container opens, whatever stands in it.
      if room = 0 then .error (.tooDeep .object)
      else
        match skipSpaces rest with
        | '}' :: rest => .ok (.object [], rest)
        | rest => scanMembers (room - 1) steps [] rest
    | '[' :: rest =>
      if room = 0 then .error (.tooDeep .list)
      else
        match skipSpaces rest with
        | ']' :: rest => .ok (.list [], rest)
        | rest => scanItems (room - 1) steps [] rest
    | _ => scanScalar chars

/-- The members of an object from a name on, behind those read already. -/
def scanMembers (room : Nat) : Nat → List (List Nat × Document) → List Char →
    Except ScanError (Document × List Char)
  | 0, _, chars => .error (.flaw .expectingValue chars)
  | steps + 1, done, chars =>
    match chars with
    | '"' :: rest => do
      let (name, rest) ← scanText chars [] rest
      match skipSpaces rest with
      | ':' :: rest => do
        let (value, rest) ← scanValue room steps (skipSpaces rest)
        let members := setMember name value done
        match skipSpaces rest with
        | '}' :: rest => return (.object members, rest)
        | ',' :: rest => scanMembers room steps members (skipSpaces rest)
        | rest => throw (.flaw .expectingComma rest)
      | rest => throw (.flaw .expectingColon rest)
    | _ => .error (.flaw .expectingName chars)

/-- The items of a list from a value on, behind those read already, the latest first. -/
def scanItems (room : Nat) : Nat → List Document → List Char →
    Except ScanError (Document × List Char)
  | 0, _, chars => .error (.flaw .expectingValue chars)
  | steps + 1, done, chars => do
    let (item, rest) ← scanValue room steps chars
    match skipSpaces rest with
    | ']' :: rest => return (.list (item :: done).reverse, rest)
    | ',' :: rest => scanItems room steps (item :: done) (skipSpaces rest)
    | rest => throw (.flaw .expectingComma rest)

end

/-- The place of a flaw in a text. -/
def locate (chars : List Char) : ScanError → ReadError
  | .tooLong digits => .tooLong digits
  | .tooDeep container => .tooDeep container
  | .flaw flaw left =>
    let position := chars.length - left.length
    let before := chars.take position
    let line := before.count '\n' + 1
    let column := (before.reverse.takeWhile (· != '\n')).length + 1
    .flaw flaw line column position

/-- A whole text as one document, in which as many containers as there is room for may open
inside one another. -/
def scan (room : Nat) (chars : List Char) : Except ScanError Document :=
  if chars.head? = some '\ufeff' then .error (.flaw .byteOrderMark chars)
  else do
    let (document, rest) ← scanValue room (2 * chars.length + 2) (skipSpaces chars)
    match skipSpaces rest with
    | [] => return document
    | rest => throw (.flaw .extraData rest)

/-- The document that a text denotes. -/
def read (room : Nat) (text : String) : Except ReadError Document :=
  match scan room text.toList with
  | .ok document => .ok document
  | .error error => .error (locate text.toList error)

end TapeCompiler.Document
