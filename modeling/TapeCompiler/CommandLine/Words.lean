/-
# Sorting the words of a command line

Every word is an option, an operand, or the separator behind which all words are
operands. A long option may be shortened as long as one option fits, and may
carry its value behind an equals sign; a short one may carry its value, or
further short options, right behind its letter. A word that looks like a negative
number, or that holds a space and fits no option, is an operand. Any other word
with a leading dash is an unknown option.
-/

import TapeCompiler.CommandLine.Interface
import TapeCompiler.Number.Numeral

namespace TapeCompiler.CommandLine

/-- An option recognised in a word: the name it was found by and the value glued to it. -/
structure Hit (σ : Type) where
  option : OptionSpec σ
  name : String
  glued : Option String

/-- A word of the command line, sorted. -/
inductive Word (σ : Type)
  /-- The first `--`. -/
  | separator
  | operand (text : String)
  | option (text : String) (hit : Hit σ)
  /-- A word that looks like an option and is none. -/
  | unknown (text : String)

variable {σ : Type}

/-- The word as it was given. -/
def Word.text : Word σ → String
  | separator => "--"
  | operand text => text
  | option text _ => text
  | unknown text => text

/-- Whether a word is sorted among the options. -/
def Word.isOption : Word σ → Bool
  | option _ _ => true
  | unknown _ => true
  | _ => false

/-- Whether a text is a minus sign with a decimal number behind it, which may end in one line
end. -/
def isNegativeNumber (text : String) : Bool :=
  match text.toList with
  | '-' :: body =>
    let digits := if body.getLast? == some '\n' then body.dropLast else body
    let behind := digits.dropWhile Number.isDigit
    match behind with
    | [] => !digits.isEmpty
    | '.' :: fraction => !fraction.isEmpty && fraction.all Number.isDigit
    | _ => false
  | _ => false

/-- A text split at its first equals sign. -/
def splitAtEquals (text : String) : String × Option String :=
  let chars := text.toList
  match chars.dropWhile (· != '=') with
  | [] => (text, none)
  | _ :: value => (String.ofList (chars.takeWhile (· != '=')), some (String.ofList value))

namespace Interface

/-- The options that a word may stand for: those whose long name it shortens, or the short
option it starts with. -/
def candidates (interface : Interface σ) (text : String) : List (Hit σ) :=
  match text.toList with
  | '-' :: '-' :: _ =>
    let (start, value) := splitAtEquals text
    (interface.namedOptions.filter fun named => start.toList.isPrefixOf named.1.toList).map
      fun named => ⟨named.2, named.1, value⟩
  | '-' :: letter :: rest =>
    (interface.namedOptions.filter fun named => named.1.toList == ['-', letter]).map
      fun named => ⟨named.2, named.1, some (String.ofList rest)⟩
  | _ => []

/-- Sort a word that fits no name of an option as a whole. -/
def sortInexact (interface : Interface σ) (text : String) : Except Stop (Word σ) :=
  match interface.candidates text with
  | [hit] => .ok (.option text hit)
  | [] =>
    if isNegativeNumber text || text.toList.contains ' ' then .ok (.operand text)
    else .ok (.unknown text)
  | hits => .error (.complaint ("ambiguous option: " ++ text ++ " could match " ++
      String.intercalate ", " (hits.map Hit.name)))

/-- Sort one word that stands before the separator. -/
def sortWord (interface : Interface σ) (text : String) : Except Stop (Word σ) :=
  match text.toList with
  | '-' :: rest =>
    match interface.option? text with
    | some option => .ok (.option text ⟨option, text, none⟩)
    | none =>
      if rest.isEmpty then .ok (.operand text)
      else
        match splitAtEquals text with
        | (name, some value) =>
          match interface.option? name with
          | some option => .ok (.option text ⟨option, name, some value⟩)
          | none => interface.sortInexact text
        | _ => interface.sortInexact text
  | _ => .ok (.operand text)

/-- Sort the words of a command line. -/
def sortWords (interface : Interface σ) : List String → Except Stop (List (Word σ))
  | [] => .ok []
  | text :: rest =>
    if text = "--" then .ok (.separator :: rest.map .operand)
    else do
      let word ← interface.sortWord text
      let others ← interface.sortWords rest
      return word :: others

end Interface

end TapeCompiler.CommandLine
