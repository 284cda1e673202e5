/-
# Reading a command line

The sorted words are taken in order. Options change the settings; operands are
handed out as the command wants them. An option that takes a value takes it from
its own word or from the next one, which must be an operand. Words that fit
nothing are collected and reported at the end, after a missing operand.
-/

import TapeCompiler.CommandLine.Words
import TapeCompiler.Text.Quoted

namespace TapeCompiler.CommandLine

variable {σ : Type}

namespace Interface

/-! ## Taking options -/

/-- The options that one word holds: some that stand alone, then perhaps one that takes a value,
with the value if it is glued on. -/
structure Cluster (σ : Type) where
  alone : List (OptionSpec σ)
  last : Option (OptionSpec σ × Option String)

/-- The complaint about a value glued to an option that takes none. -/
def ignored (option : OptionSpec σ) (value : String) : Stop :=
  option.complain ("ignored explicit argument " ++ Text.quote value)

/-- The short options behind one that stands alone, joined to it in one word. -/
def clusterBehind (interface : Interface σ) (before : OptionSpec σ) :
    List Char → Except Stop (Cluster σ)
  | [] => .ok ⟨[before], none⟩
  | letter :: rest =>
    match interface.option? (String.ofList ['-', letter]) with
    | none => .error (ignored before (String.ofList (letter :: rest)))
    | some option =>
      match option.effect with
      | .value _ =>
        .ok ⟨[before], some (option, if rest.isEmpty then none else some (String.ofList rest))⟩
      | _ => do
        let cluster ← interface.clusterBehind option rest
        return { cluster with alone := before :: cluster.alone }

/-- The options that a recognised word holds. -/
def cluster (interface : Interface σ) (hit : Hit σ) : Except Stop (Cluster σ) :=
  match hit.option.effect, hit.glued with
  | .value _, glued => .ok ⟨[], some (hit.option, glued)⟩
  | _, none => .ok ⟨[hit.option], none⟩
  | _, some value =>
    if value.isEmpty || hit.name.startsWith "--" then .error (ignored hit.option value)
    else interface.clusterBehind hit.option value.toList

/-- Apply an option that stands alone. -/
def applyAlone (option : OptionSpec σ) (settings : σ) : Except Stop σ :=
  match option.effect with
  | .help => .error .help
  | .flag apply => .ok (apply settings)
  | .value _ => .ok settings

/-- Apply an option with its value. -/
def applyValue (option : OptionSpec σ) (value : String) (settings : σ) : Except Stop σ :=
  match option.effect with
  | .value apply =>
    -- A separator in the place of a value counts as no value.
    match apply (if value = "--" then none else some value) settings with
    | .ok settings => .ok settings
    | .error text => .error (option.complain text)
  | _ => applyAlone option settings

/-- Apply the options that a recognised word holds. The result counts the words behind it that
were used, which is one for a value that is not glued on. -/
def takeOption (interface : Interface σ) (hit : Hit σ) (following : List (Word σ))
    (settings : σ) : Except Stop (σ × Nat) := do
  let cluster ← interface.cluster hit
  let alone := cluster.alone.foldlM (fun settings option => applyAlone option settings) settings
  match cluster.last with
  | none => return (← alone, 0)
  | some (option, some value) => return (← applyValue option value (← alone), 0)
  | some (option, none) =>
    -- A missing value is reported before any option of the word takes effect.
    match following with
    | .operand value :: _ => return (← applyValue option value (← alone), 1)
    | _ => throw (option.complain "expected one argument")

/-! ## Taking words in order -/

/-- What has been read so far. -/
structure Progress (σ : Type) where
  settings : σ
  /-- Whether the operands have been handed out. -/
  operandsTaken : Bool
  /-- The words that fit nothing. -/
  extras : List String

/-- Set words aside that fit nothing. -/
def Progress.setAside (progress : Progress σ) (words : List (Word σ)) : Progress σ :=
  { progress with extras := progress.extras ++ words.map Word.text }

/-- The operands among some words. -/
def operandTexts (words : List (Word σ)) : List String :=
  words.filterMap fun word =>
    match word with
    | .operand text => some text
    | _ => none

/-- Take words behind the last option. -/
def takeOperands (interface : Interface σ) (words : List (Word σ)) (progress : Progress σ) :
    Progress σ :=
  if progress.operandsTaken then progress.setAside words
  else
    match interface.operand with
    | .many apply =>
      { progress with
        settings := apply (operandTexts words) progress.settings
        operandsTaken := true }
    | .one _ apply =>
      let take := fun text rest => Progress.setAside
        { progress with settings := apply text progress.settings, operandsTaken := true } rest
      match words with
      | .operand text :: .separator :: rest => take text rest
      | .operand text :: rest => take text rest
      | .separator :: .operand text :: rest => take text rest
      | _ => progress.setAside words

/-- Take words in order. Before an option, a single operand is taken alone and any number of
them is taken as far as the option. -/
def takeWords (interface : Interface σ) (words : List (Word σ)) (progress : Progress σ) :
    Except Stop (Progress σ) :=
  match words with
  | [] => .ok (interface.takeOperands [] progress)
  | .unknown text :: rest =>
    interface.takeWords rest { progress with extras := progress.extras ++ [text] }
  | .option _ hit :: rest =>
    match interface.takeOption hit rest progress.settings with
    | .error stop => .error stop
    | .ok (settings, used) =>
      interface.takeWords (rest.drop used) { progress with settings := settings }
  | word :: rest =>
    if rest.any Word.isOption then
      if progress.operandsTaken then interface.takeWords rest (progress.setAside [word])
      else
        match interface.operand with
        | .one _ apply =>
          interface.takeWords rest
            { progress with
              settings := apply word.text progress.settings
              operandsTaken := true }
        | .many apply =>
          let group := (word :: rest).takeWhile fun other => !other.isOption
          interface.takeWords (rest.dropWhile fun other => !other.isOption)
            { progress with
              settings := apply (operandTexts group) progress.settings
              operandsTaken := true }
    else .ok (interface.takeOperands (word :: rest) progress)
termination_by words.length
decreasing_by
  all_goals simp only [List.length_cons, List.length_drop]
  all_goals try omega
  have := (List.dropWhile_sublist (l := rest) fun other => !other.isOption).length_le
  omega

/-- Read a command line, starting from given settings. -/
def read (interface : Interface σ) (start : σ) (arguments : List String) : Except Stop σ := do
  let words ← interface.sortWords arguments
  let progress ← interface.takeWords words ⟨start, false, []⟩
  match interface.operand, progress.operandsTaken with
  | .one name _, false =>
    throw (.complaint ("the following arguments are required: " ++ name))
  | _, _ =>
    if progress.extras.isEmpty then return progress.settings
    else throw (.complaint ("unrecognized arguments: " ++
      String.intercalate " " progress.extras))

end Interface

end TapeCompiler.CommandLine
