/-
# The command line of a program

An interface lists the options of a command, says what its operands are, and
holds the texts that explain it. It is written for settings of any type: an
option says what it does to them.
-/

namespace TapeCompiler.CommandLine

/-- What an option does to the settings. -/
inductive Effect (σ : Type)
  /-- Show the help text and stop. -/
  | help
  /-- The option stands alone. -/
  | flag (apply : σ → σ)
  /-- The option takes a value, which may be refused with a message. The value is missing when
  the separator stands in its place behind an equals sign. -/
  | value (apply : Option String → σ → Except String σ)

/-- An option: its names, short before long, and what it does. -/
structure OptionSpec (σ : Type) where
  names : List String
  effect : Effect σ

/-- The operands that a command takes. -/
inductive Operand (σ : Type)
  /-- Exactly one, called by this name in messages. -/
  | one (name : String) (apply : String → σ → σ)
  /-- Any number. -/
  | many (apply : List String → σ → σ)

/-- The command line of a program. -/
structure Interface (σ : Type) where
  program : String
  /-- The line that shows how the command is called. -/
  usage : String
  /-- The help text below that line. -/
  help : String
  options : List (OptionSpec σ)
  operand : Operand σ

/-- Why reading ends early. -/
inductive Stop
  | help
  | complaint (text : String)
  deriving DecidableEq, Repr

variable {σ : Type}

/-- The names of an option as messages show them. -/
def OptionSpec.title (option : OptionSpec σ) : String :=
  String.intercalate "/" option.names

/-- A complaint about one option. -/
def OptionSpec.complain (option : OptionSpec σ) (text : String) : Stop :=
  .complaint ("argument " ++ option.title ++ ": " ++ text)

namespace Interface

/-- Every name of every option, in order. -/
def namedOptions (interface : Interface σ) : List (String × OptionSpec σ) :=
  interface.options.flatMap fun option => option.names.map fun name => (name, option)

/-- The option with exactly this name. -/
def option? (interface : Interface σ) (name : String) : Option (OptionSpec σ) :=
  (interface.namedOptions.find? fun named => named.1 == name).map Prod.snd

/-- What a program prints when reading its command line ends early: the exit code, and the text
on each channel. -/
def respond (interface : Interface σ) : Stop → Nat × String × String
  | .help => (0, interface.usage ++ "\n\n" ++ interface.help, "")
  | .complaint text =>
    (2, "", interface.usage ++ "\n" ++ interface.program ++ ": error: " ++ text ++ "\n")

end Interface

end TapeCompiler.CommandLine
