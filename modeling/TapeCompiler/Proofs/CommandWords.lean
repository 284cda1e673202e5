/-
# Command lines word by word

Reading a command line sorts its words and then takes them in order. A word without a
leading dash is an operand, and a value may be glued to the name of its option by an
equals sign. A command that takes any number of operands takes them together; one that
takes a single operand takes the first when it comes, whatever follows, and sets the
others aside. An option with a value takes it from its own word or uses up the operand
behind it.
-/

import TapeCompiler.CommandLine.Settings

namespace TapeCompiler

namespace CommandLine.Interface

variable {σ : Type} {interface : Interface σ} {option : OptionSpec σ}
  {text name value title : String} {texts : List String} {rest : List (Word σ)}
  {progress : Progress σ}

/-! ## Sorting words -/

theorem sortWord_of_head?_ne (h : text.toList.head? ≠ some '-') :
    interface.sortWord text = .ok (.operand text) := by
  unfold sortWord
  split
  · next rest heq => simp [heq] at h
  · rfl

theorem ne_separator_of_head?_ne (h : text.toList.head? ≠ some '-') : text ≠ "--" := by
  rintro rfl
  exact h (by decide)

theorem sortWords_cons {word : Word σ} (hseparator : text ≠ "--")
    (hword : interface.sortWord text = .ok word) (rest : List String) :
    interface.sortWords (text :: rest) = (interface.sortWords rest).map (word :: ·) := by
  rw [sortWords, if_neg hseparator, hword]
  cases interface.sortWords rest <;> rfl

/-- Words without a leading dash are operands. -/
theorem sortWords_of_head?_ne (h : ∀ text ∈ texts, text.toList.head? ≠ some '-') :
    interface.sortWords texts = .ok (texts.map .operand) := by
  induction texts with
  | nil => rfl
  | cons text rest ih =>
    obtain ⟨htext, hrest⟩ := List.forall_mem_cons.1 h
    rw [sortWords_cons (ne_separator_of_head?_ne htext) (sortWord_of_head?_ne htext), ih hrest]
    rfl

theorem splitAtEquals_append (hname : '=' ∉ name.toList) (value : String) :
    splitAtEquals (name ++ "=" ++ value) = (name, some value) := by
  have hbefore : ∀ c ∈ name.toList, (c != '=') = true := by
    intro c hc
    rw [bne_iff_ne]
    rintro rfl
    exact hname hc
  have hchars : (name ++ "=" ++ value).toList = name.toList ++ '=' :: value.toList := by simp
  have hstop : List.dropWhile (· != '=') ('=' :: value.toList) = '=' :: value.toList := rfl
  have hnone : List.takeWhile (· != '=') ('=' :: value.toList) = [] := rfl
  simp only [splitAtEquals, hchars, List.dropWhile_append_of_pos hbefore,
    List.takeWhile_append_of_pos hbefore, hstop, hnone, List.append_nil, String.ofList_toList]

/-- A value glued to the name of an option by an equals sign. -/
theorem sortWord_glued (hdash : name.toList.head? = some '-') (hname : '=' ∉ name.toList)
    (hnames : ∀ named ∈ interface.namedOptions, '=' ∉ named.1.toList)
    (hoption : interface.option? name = some option) (value : String) :
    interface.sortWord (name ++ "=" ++ value) =
      .ok (.option (name ++ "=" ++ value) ⟨option, name, some value⟩) := by
  obtain ⟨others, hothers⟩ := List.head?_eq_some_iff.1 hdash
  have hchars : (name ++ "=" ++ value).toList = '-' :: (others ++ '=' :: value.toList) := by
    simp [hothers]
  -- The word as a whole is no name, since names have no equals sign.
  have hwhole : interface.option? (name ++ "=" ++ value) = none := by
    rw [option?, Option.map_eq_none_iff, List.find?_eq_none]
    intro named hnamed hequal
    refine hnames named hnamed ?_
    rw [eq_of_beq hequal, hchars]
    simp
  have hlong : (others ++ '=' :: value.toList).isEmpty = false := by simp
  simp only [sortWord, hchars, hwhole, hlong, splitAtEquals_append hname, hoption]
  rfl

/-! ## Taking words -/

theorem operandTexts_map_operand (texts : List String) :
    operandTexts (texts.map (.operand : String → Word σ)) = texts := by
  induction texts with
  | nil => rfl
  | cons text rest ih =>
    rw [List.map_cons]
    simp only [operandTexts, List.filterMap_cons] at ih ⊢
    rw [ih]

/-- A command that takes any number of operands takes all the words that are left. -/
theorem takeWords_map_operand {apply : List String → σ → σ}
    (h : interface.operand = .many apply) (hfree : progress.operandsTaken = false) :
    interface.takeWords (texts.map .operand) progress =
      .ok { progress with settings := apply texts progress.settings, operandsTaken := true } := by
  have hoperands : interface.takeOperands (texts.map .operand) progress =
      { progress with settings := apply texts progress.settings, operandsTaken := true } := by
    simp [takeOperands, hfree, h, operandTexts_map_operand]
  cases texts with
  | nil =>
    rw [List.map_nil, takeWords]
    exact congrArg _ hoperands
  | cons text rest =>
    have hplain : (rest.map (.operand : String → Word σ)).any Word.isOption = false := by
      simp [Word.isOption]
    rw [List.map_cons, takeWords]
    · rw [if_neg (by simp [hplain])]
      exact congrArg _ hoperands
    · simp
    · simp

section Options

variable {apply : Option String → σ → Except String σ} (h : option.effect = .value apply)
include h

/-- An option with its value glued on changes the settings, and reading goes on behind it. -/
theorem takeWords_glued :
    interface.takeWords (.option text ⟨option, name, some value⟩ :: rest) progress = (do
      let after ← applyValue option value progress.settings
      interface.takeWords rest { progress with settings := after }) := by
  rw [takeWords]
  cases hvalue : applyValue option value progress.settings <;>
    simp [takeOption, cluster, h, hvalue, bind, Except.bind, pure, Except.pure]

/-- An option with a value takes it from the next word. -/
theorem takeWords_apart :
    interface.takeWords (.option text ⟨option, name, none⟩ :: .operand value :: rest) progress =
      (do
        let after ← applyValue option value progress.settings
        interface.takeWords rest { progress with settings := after }) := by
  rw [takeWords]
  cases hvalue : applyValue option value progress.settings <;>
    simp [takeOption, cluster, h, hvalue, bind, Except.bind, pure, Except.pure]

end Options

theorem takeWords_flag {apply : σ → σ} (h : option.effect = .flag apply) :
    interface.takeWords (.option text ⟨option, name, none⟩ :: rest) progress =
      interface.takeWords rest { progress with settings := apply progress.settings } := by
  rw [takeWords]
  simp [takeOption, cluster, h, applyAlone, bind, Except.bind, pure, Except.pure]

/-! ## A single operand -/

/-- Hand an operand to a command that takes one: the first is taken, the others fit nothing. -/
def Progress.hand (apply : String → σ → σ) (text : String) (progress : Progress σ) :
    Progress σ :=
  if progress.operandsTaken then { progress with extras := progress.extras ++ [text] }
  else { progress with settings := apply text progress.settings, operandsTaken := true }

theorem operandsTaken_hand (apply : String → σ → σ) (text : String) (progress : Progress σ) :
    (progress.hand apply text).operandsTaken = true := by
  unfold Progress.hand
  split <;> trivial

/-- Once the operand is taken, words among which there is no option fit nothing. -/
theorem takeWords_of_operandsTaken (htaken : progress.operandsTaken = true)
    (hplain : rest.any Word.isOption = false) :
    interface.takeWords rest progress = .ok (progress.setAside rest) := by
  cases rest with
  | nil => rw [takeWords, takeOperands, if_pos htaken]
  | cons word others =>
    rw [List.any_cons, Bool.or_eq_false_iff] at hplain
    cases word with
    | option _ _ | unknown _ => cases hplain.1
    | operand _ | separator =>
      rw [takeWords, if_neg (by simp [hplain.2]), takeOperands, if_pos htaken]
      · simp
      · simp

section OneOperand

variable {apply : String → σ → σ} (h : interface.operand = .one title apply)
include h

theorem takeWords_nil_one : interface.takeWords [] progress = .ok progress := by
  have hnothing : progress.setAside [] = progress := by simp [Progress.setAside]
  rw [takeWords, takeOperands, h, hnothing]
  split <;> rfl

/-- Of words that are looked at together the first operand is handed over, and the others fit
nothing. -/
theorem takeOperands_one (hrest : rest.head? ≠ some .separator) :
    interface.takeOperands (.operand text :: rest) progress =
      (progress.hand apply text).setAside rest := by
  cases htaken : progress.operandsTaken with
  | true => simp [takeOperands, htaken, Progress.hand, Progress.setAside, Word.text]
  | false =>
    simp only [takeOperands, htaken, h, Progress.hand]
    cases rest with
    | nil => rfl
    | cons word others =>
      cases word with
      | separator => exact absurd rfl hrest
      | operand _ | option _ _ | unknown _ => rfl

/-- An operand is handed over where it stands, whether or not options come behind it. -/
theorem takeWords_one (hrest : rest.head? ≠ some .separator) :
    interface.takeWords (.operand text :: rest) progress =
      interface.takeWords rest (progress.hand apply text) := by
  rw [takeWords]
  · cases hoption : rest.any Word.isOption with
    | true =>
      cases htaken : progress.operandsTaken <;>
        simp [htaken, h, Progress.hand, Progress.setAside, Word.text]
    | false =>
      -- Without an option behind it the operand is looked at together with all that is left.
      rw [takeWords_of_operandsTaken (operandsTaken_hand apply text progress) hoption,
        ← takeOperands_one h hrest]
      rfl
  · simp
  · simp

end OneOperand

end CommandLine.Interface

end TapeCompiler
