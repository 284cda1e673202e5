/-
# What a command line puts into the settings

Whatever reaches an option or an operand is a word of the command line or a piece
of one, so it has no character that the words do not have. Hence a property of
the settings that every option and every operand keeps holds of the settings that
are read, whatever the words are and in whatever order they come.

For the compiler this gives three facts: a size of the tape is a positive number
within the digit limit, an output file is read from a text, and words without a NUL
character make paths without one.
-/

import Mathlib.Algebra.Order.Ring.Nat
import TapeCompiler.CommandLine.Settings

namespace TapeCompiler

/-- A sequence of two steps succeeds through a value in the middle. -/
theorem exists_of_bind_eq_ok {ε α β : Type} {first : Except ε α} {rest : α → Except ε β}
    {result : β} (h : (first >>= rest) = .ok result) :
    ∃ middle, first = .ok middle ∧ rest middle = .ok result := by
  cases first with
  | error error => cases h
  | ok middle => exact ⟨middle, rfl, h⟩

theorem eq_ok_of_toOption_eq_some {ε α : Type} {result : Except ε α} {value : α}
    (h : result.toOption = some value) : result = .ok value := by
  cases result with
  | error error => cases h
  | ok value =>
    cases h
    rfl

/-! ## Numbers that are read -/

namespace Number

theorem foldl_digits_lt {values : List Nat} (h : ∀ value ∈ values, value < 10) (total : Nat) :
    values.foldl (fun total value => 10 * total + value) total <
      (total + 1) * 10 ^ values.length := by
  induction values generalizing total with
  | nil => simp
  | cons value rest ih =>
    have hvalue : value < 10 := h value List.mem_cons_self
    have hrest := ih (fun other hmem => h other (List.mem_cons_of_mem _ hmem)) (10 * total + value)
    calc rest.foldl (fun total value => 10 * total + value) (10 * total + value)
        < (10 * total + value + 1) * 10 ^ rest.length := hrest
      _ ≤ ((total + 1) * 10) * 10 ^ rest.length := Nat.mul_le_mul_right _ (by omega)
      _ = (total + 1) * 10 ^ (rest.length + 1) := by rw [Nat.mul_assoc, ← Nat.pow_succ']

/-- A number with at most so many digits is below that power of ten. -/
theorem ofDigitValues_lt {values : List Nat} {limit : Nat} (h : ∀ value ∈ values, value < 10)
    (hlength : values.length ≤ limit) : ofDigitValues values < Nat.pow 10 limit := by
  have hlt : ofDigitValues values < 10 ^ values.length := by
    simpa [ofDigitValues] using foldl_digits_lt h 0
  exact hlt.trans_le (Nat.pow_le_pow_right (by decide) hlength)

/-- A number that was read is within the digit limit. -/
theorem writable_of_read_eq_value {text : String} {n : Int} (h : read text = .value n) :
    Writable n := by
  simp only [read, readChars] at h
  generalize splitSign (text.toList.dropWhile Text.isBlank) = split at h
  obtain ⟨negative, body⟩ := split
  generalize hvalues : (body.takeWhile isDigitOrJoint).filterMap Text.digitValue? = values at h
  have hdigits : ∀ value ∈ values, value < 10 := by
    intro value hmem
    rw [← hvalues] at hmem
    obtain ⟨c, -, hc⟩ := List.mem_filterMap.1 hmem
    exact Text.digitValue?_lt hc
  split_ifs at h with hrun hlimit hblank hsign
  all_goals
    injection h with h
    subst h
    have hsize : ofDigitValues values < Nat.pow 10 digitLimit :=
      ofDigitValues_lt hdigits (Nat.not_lt.1 hlimit)
    unfold Writable
    omega

theorem writable_of_readPositive_eq_ok {text : String} {n : Nat} (h : readPositive text = .ok n) :
    Writable n := by
  unfold readPositive at h
  split at h
  · next value hread =>
    split_ifs at h with hpos
    injection h with h
    subst h
    have hvalue := writable_of_read_eq_value hread
    rwa [Int.toNat_of_nonneg (le_of_lt hpos)]
  · cases h

end Number

namespace CommandLine

variable {σ : Type} {interface : Interface σ} {allowed : Char → Prop} {kept : σ → Prop}
  {settings after : σ} {text value : String} {option : OptionSpec σ} {hit : Hit σ}
  {words : List (Word σ)} {arguments : List String}

/-! ## Words and their pieces -/

/-- Only allowed characters stand in a text. -/
def Spelled (allowed : Char → Prop) (text : String) : Prop := ∀ c ∈ text.toList, allowed c

theorem Spelled.ofList {chars : List Char} (h : Spelled allowed text)
    (hpiece : ∀ c ∈ chars, c ∈ text.toList) : Spelled allowed (String.ofList chars) := by
  intro c hc
  rw [String.toList_ofList] at hc
  exact h c (hpiece c hc)

/-- What stands behind an equals sign is a piece of the text. -/
theorem Spelled.of_splitAtEquals {name : String} (h : Spelled allowed text)
    (hsplit : splitAtEquals text = (name, some value)) : Spelled allowed value := by
  simp only [splitAtEquals] at hsplit
  split at hsplit
  · cases hsplit
  · next equals rest hdrop =>
    injection hsplit with _ hvalue
    injection hvalue with hvalue
    subst hvalue
    refine h.ofList fun c hc => (List.dropWhile_sublist (· != '=')).subset ?_
    rw [hdrop]
    exact List.mem_cons_of_mem _ hc

/-- An option of the interface, with a value of allowed characters if one is glued to it. -/
structure Hit.Fits (interface : Interface σ) (allowed : Char → Prop) (hit : Hit σ) : Prop where
  listed : hit.option ∈ interface.options
  spelled : ∀ value ∈ hit.glued, Spelled allowed value

/-- A word of allowed characters which, if it is an option, is one of the interface. -/
def Word.Fits (interface : Interface σ) (allowed : Char → Prop) (word : Word σ) : Prop :=
  Spelled allowed word.text ∧ ∀ text hit, word = .option text hit → hit.Fits interface allowed

theorem Word.fits_operand (h : Spelled allowed text) :
    (Word.operand text : Word σ).Fits interface allowed := ⟨h, nofun⟩

theorem Word.fits_option (h : Spelled allowed text) (hhit : hit.Fits interface allowed) :
    (Word.option text hit).Fits interface allowed := by
  refine ⟨h, fun text' hit' heq => ?_⟩
  cases heq
  exact hhit

namespace Interface

theorem mem_options_of_mem_namedOptions {named : String × OptionSpec σ}
    (h : named ∈ interface.namedOptions) : named.2 ∈ interface.options := by
  obtain ⟨option, hoption, hnamed⟩ := List.mem_flatMap.1 h
  obtain ⟨name, -, rfl⟩ := List.mem_map.1 hnamed
  exact hoption

theorem mem_options_of_option?_eq_some {name : String} (h : interface.option? name = some option) :
    option ∈ interface.options := by
  obtain ⟨named, hfind, rfl⟩ := Option.map_eq_some_iff.1 h
  exact mem_options_of_mem_namedOptions (List.mem_of_find?_eq_some hfind)

theorem fits_of_mem_candidates (h : Spelled allowed text)
    (hmem : hit ∈ interface.candidates text) : hit.Fits interface allowed := by
  unfold candidates at hmem
  split at hmem
  · obtain ⟨named, hnamed, rfl⟩ := List.mem_map.1 hmem
    refine ⟨mem_options_of_mem_namedOptions (List.mem_filter.1 hnamed).1, fun value hvalue => ?_⟩
    exact h.of_splitAtEquals (Prod.ext rfl hvalue)
  · next letter rest _ htext =>
    obtain ⟨named, hnamed, rfl⟩ := List.mem_map.1 hmem
    refine ⟨mem_options_of_mem_namedOptions (List.mem_filter.1 hnamed).1, fun value hvalue => ?_⟩
    cases hvalue
    refine h.ofList fun c hc => ?_
    rw [htext]
    exact List.mem_cons_of_mem _ (List.mem_cons_of_mem _ hc)
  · cases hmem

theorem fits_of_sortInexact_eq_ok {word : Word σ} (h : Spelled allowed text)
    (hsort : interface.sortInexact text = .ok word) : word.Fits interface allowed := by
  unfold sortInexact at hsort
  split at hsort
  · next hit hcandidates =>
    cases hsort
    exact Word.fits_option h (fits_of_mem_candidates h (by simp [hcandidates]))
  · split at hsort
    · cases hsort
      exact Word.fits_operand h
    · cases hsort
      exact ⟨h, nofun⟩
  · cases hsort

theorem fits_of_sortWord_eq_ok {word : Word σ} (h : Spelled allowed text)
    (hsort : interface.sortWord text = .ok word) : word.Fits interface allowed := by
  unfold sortWord at hsort
  split at hsort
  · split at hsort
    · next option hfound =>
      cases hsort
      exact Word.fits_option h ⟨mem_options_of_option?_eq_some hfound, nofun⟩
    · split at hsort
      · cases hsort
        exact Word.fits_operand h
      · split at hsort
        -- The name in front of an equals sign is tried before the name is taken as shortened.
        · next name value hsplit =>
          split at hsort
          · next option hfound =>
            cases hsort
            refine Word.fits_option h ⟨mem_options_of_option?_eq_some hfound, ?_⟩
            rintro _ ⟨⟩
            exact h.of_splitAtEquals hsplit
          · exact fits_of_sortInexact_eq_ok h hsort
        · exact fits_of_sortInexact_eq_ok h hsort
  · cases hsort
    exact Word.fits_operand h

/-- Sorting gives words that fit. -/
theorem fits_of_sortWords_eq_ok (h : ∀ argument ∈ arguments, Spelled allowed argument)
    (hsort : interface.sortWords arguments = .ok words) :
    ∀ word ∈ words, word.Fits interface allowed := by
  induction arguments generalizing words with
  | nil =>
    cases hsort
    simp
  | cons argument rest ih =>
    obtain ⟨hargument, hrest⟩ := List.forall_mem_cons.1 h
    rw [sortWords] at hsort
    split at hsort
    · next hseparator =>
      cases hsort
      subst hseparator
      refine List.forall_mem_cons.2 ⟨⟨hargument, nofun⟩, fun word hword => ?_⟩
      obtain ⟨other, hother, rfl⟩ := List.mem_map.1 hword
      exact Word.fits_operand (hrest other hother)
    · obtain ⟨word, hword, hsort⟩ := exists_of_bind_eq_ok hsort
      obtain ⟨others, hothers, hsort⟩ := exists_of_bind_eq_ok hsort
      cases hsort
      exact List.forall_mem_cons.2 ⟨fits_of_sortWord_eq_ok hargument hword, ih hrest hothers⟩

/-! ## Options in one word -/

/-- The options of a word are of the interface, and a glued value has allowed characters only. -/
structure Cluster.Fits (interface : Interface σ) (allowed : Char → Prop) (cluster : Cluster σ) :
    Prop where
  alone : ∀ option ∈ cluster.alone, option ∈ interface.options
  last : ∀ option glued, cluster.last = some (option, glued) →
    option ∈ interface.options ∧ ∀ value ∈ glued, Spelled allowed value

theorem fits_of_clusterBehind_eq_ok {letters : List Char} {cluster : Cluster σ}
    (hletters : ∀ c ∈ letters, allowed c) (hbefore : option ∈ interface.options)
    (h : interface.clusterBehind option letters = .ok cluster) :
    cluster.Fits interface allowed := by
  induction letters generalizing option cluster with
  | nil =>
    cases h
    exact ⟨by simpa using hbefore, nofun⟩
  | cons letter rest ih =>
    have hrest : ∀ c ∈ rest, allowed c := fun c hc => hletters c (List.mem_cons_of_mem _ hc)
    rw [clusterBehind] at h
    split at h
    · cases h
    · next found hfound =>
      have hlisted := mem_options_of_option?_eq_some hfound
      split at h
      · cases h
        refine ⟨by simpa using hbefore, fun option glued heq => ?_⟩
        cases heq
        refine ⟨hlisted, fun value hvalue => ?_⟩
        split_ifs at hvalue
        · cases hvalue
        · cases hvalue
          simpa [Spelled] using hrest
      · obtain ⟨behind, hbehind, h⟩ := exists_of_bind_eq_ok h
        cases h
        obtain ⟨halone, hlast⟩ := ih hrest hlisted hbehind
        exact ⟨List.forall_mem_cons.2 ⟨hbefore, halone⟩, hlast⟩

theorem fits_of_cluster_eq_ok {cluster : Cluster σ} (hhit : hit.Fits interface allowed)
    (h : interface.cluster hit = .ok cluster) : cluster.Fits interface allowed := by
  unfold Interface.cluster at h
  split at h
  · cases h
    refine ⟨by simp, fun option glued heq => ?_⟩
    cases heq
    exact ⟨hhit.listed, hhit.spelled⟩
  · cases h
    exact ⟨by simpa using hhit.listed, nofun⟩
  · next value hglued _ =>
    -- What is glued to an option that stands alone are further options.
    split_ifs at h
    exact fits_of_clusterBehind_eq_ok (hhit.spelled value hglued) hhit.listed h

/-! ## Properties that reading keeps -/

/-- A property of the settings that no option and no operand breaks, as long as the texts that
come in have allowed characters only. -/
structure Keeps (interface : Interface σ) (allowed : Char → Prop) (kept : σ → Prop) : Prop where
  flag : ∀ option ∈ interface.options, ∀ apply, option.effect = .flag apply →
    ∀ settings, kept settings → kept (apply settings)
  value : ∀ option ∈ interface.options, ∀ apply, option.effect = .value apply →
    ∀ given settings after, (∀ text ∈ given, Spelled allowed text) → kept settings →
      apply given settings = .ok after → kept after
  one : ∀ name apply, interface.operand = .one name apply →
    ∀ text settings, Spelled allowed text → kept settings → kept (apply text settings)
  many : ∀ apply, interface.operand = .many apply →
    ∀ texts settings, (∀ text ∈ texts, Spelled allowed text) → kept settings →
      kept (apply texts settings)

theorem spelled_of_mem_operandTexts (hwords : ∀ word ∈ words, word.Fits interface allowed) :
    ∀ text ∈ operandTexts words, Spelled allowed text := by
  intro text htext
  obtain ⟨word, hword, hkind⟩ := List.mem_filterMap.1 htext
  split at hkind
  · cases hkind
    exact (hwords _ hword).1
  · cases hkind

namespace Keeps

variable (h : interface.Keeps allowed kept)
include h

theorem of_applyAlone (hlisted : option ∈ interface.options) (hsettings : kept settings)
    (happly : applyAlone option settings = .ok after) : kept after := by
  unfold applyAlone at happly
  split at happly
  · cases happly
  · next apply heffect =>
    cases happly
    exact h.flag option hlisted apply heffect settings hsettings
  · cases happly
    exact hsettings

theorem of_applyValue (hlisted : option ∈ interface.options) (hvalue : Spelled allowed value)
    (hsettings : kept settings) (happly : applyValue option value settings = .ok after) :
    kept after := by
  unfold applyValue at happly
  split at happly
  · next apply heffect =>
    split at happly
    · next result hresult =>
      cases happly
      refine h.value option hlisted apply heffect _ settings _ (fun text htext => ?_) hsettings
        hresult
      split_ifs at htext
      · cases htext
      · cases htext
        exact hvalue
    · cases happly
  · exact h.of_applyAlone hlisted hsettings happly

theorem of_foldlM_applyAlone {options : List (OptionSpec σ)}
    (hlisted : ∀ option ∈ options, option ∈ interface.options) (hsettings : kept settings)
    (hfold : options.foldlM (fun settings option => applyAlone option settings) settings =
      .ok after) : kept after := by
  induction options generalizing settings with
  | nil =>
    cases hfold
    exact hsettings
  | cons option rest ih =>
    obtain ⟨hoption, hrest⟩ := List.forall_mem_cons.1 hlisted
    rw [List.foldlM_cons] at hfold
    obtain ⟨next, hnext, hfold⟩ := exists_of_bind_eq_ok hfold
    exact ih hrest (h.of_applyAlone hoption hsettings hnext) hfold

/-- Options that stand alone, and behind them one with its value. -/
theorem of_aloneThenValue {options : List (OptionSpec σ)} {count used : Nat}
    (halone : ∀ option ∈ options, option ∈ interface.options)
    (hlisted : option ∈ interface.options) (hvalue : Spelled allowed value)
    (hsettings : kept settings)
    (htake : (do
      let middle ← options.foldlM (fun settings option => applyAlone option settings) settings
      let result ← applyValue option value middle
      return (result, count)) = .ok (after, used)) : kept after := by
  obtain ⟨middle, hmiddle, htake⟩ := exists_of_bind_eq_ok htake
  obtain ⟨result, hresult, htake⟩ := exists_of_bind_eq_ok htake
  cases htake
  exact h.of_applyValue hlisted hvalue (h.of_foldlM_applyAlone halone hsettings hmiddle) hresult

theorem of_takeOption {following : List (Word σ)} {used : Nat}
    (hhit : hit.Fits interface allowed)
    (hfollowing : ∀ word ∈ following, word.Fits interface allowed) (hsettings : kept settings)
    (htake : interface.takeOption hit following settings = .ok (after, used)) : kept after := by
  obtain ⟨cluster, hcluster, htake⟩ := exists_of_bind_eq_ok htake
  obtain ⟨halone, hlast⟩ := fits_of_cluster_eq_ok hhit hcluster
  split at htake
  · obtain ⟨middle, hmiddle, htake⟩ := exists_of_bind_eq_ok htake
    cases htake
    exact h.of_foldlM_applyAlone halone hsettings hmiddle
  · next option value hlast' =>
    obtain ⟨hlisted, hspelled⟩ := hlast option (some value) hlast'
    exact h.of_aloneThenValue halone hlisted (hspelled value rfl) hsettings htake
  · next option hlast' =>
    -- The value is the next word, which has to be an operand.
    obtain ⟨hlisted, -⟩ := hlast option none hlast'
    split at htake
    · next value _ _ =>
      have hvalue : Spelled allowed value := (hfollowing (.operand value) List.mem_cons_self).1
      exact h.of_aloneThenValue halone hlisted hvalue hsettings htake
    · cases htake

theorem of_takeOperands {progress : Progress σ}
    (hwords : ∀ word ∈ words, word.Fits interface allowed) (hsettings : kept progress.settings) :
    kept (interface.takeOperands words progress).settings := by
  unfold takeOperands
  split
  · exact hsettings
  · split
    · next apply hoperand =>
      exact h.many apply hoperand _ _ (spelled_of_mem_operandTexts hwords) hsettings
    · next name apply hoperand =>
      have htake : ∀ text, .operand text ∈ words → kept (apply text progress.settings) :=
        fun text hmem => h.one name apply hoperand text _ (hwords _ hmem).1 hsettings
      dsimp only
      split
      · exact htake _ (by simp)
      · exact htake _ (by simp)
      · exact htake _ (by simp)
      · exact hsettings

/-- One word at a time, the settings keep what every option and operand keeps. -/
theorem of_takeWords {progress final : Progress σ}
    (hwords : ∀ word ∈ words, word.Fits interface allowed) (hsettings : kept progress.settings)
    (htake : interface.takeWords words progress = .ok final) : kept final.settings := by
  fun_induction takeWords interface words progress with
  | case1 progress =>
    cases htake
    exact h.of_takeOperands hwords hsettings
  | case2 progress text rest ih => exact ih (List.forall_mem_cons.1 hwords).2 hsettings htake
  | case3 => cases htake
  | case4 progress text hit rest settings used hoption ih =>
    obtain ⟨⟨-, hhit⟩, hrest⟩ := List.forall_mem_cons.1 hwords
    refine ih (fun word hword => hrest word (List.mem_of_mem_drop hword)) ?_ htake
    exact h.of_takeOption (hhit text hit rfl) hrest hsettings hoption
  | case5 progress word rest _ _ _ _ ih =>
    exact ih (List.forall_mem_cons.1 hwords).2 hsettings htake
  -- From here on an operand is handed out, alone or with those up to the next option.
  | case6 progress word rest _ _ _ _ name apply hoperand ih =>
    obtain ⟨hword, hrest⟩ := List.forall_mem_cons.1 hwords
    exact ih hrest (h.one name apply hoperand _ _ hword.1 hsettings) htake
  | case7 progress word rest _ _ _ _ apply hoperand group ih =>
    have hrest := (List.forall_mem_cons.1 hwords).2
    have hgroup : ∀ word ∈ group, word.Fits interface allowed :=
      fun word hword => hwords word ((List.takeWhile_sublist _).subset hword)
    refine ih (fun word hword => hrest word ((List.dropWhile_sublist _).subset hword)) ?_ htake
    exact h.many apply hoperand _ _ (spelled_of_mem_operandTexts hgroup) hsettings
  | case8 progress word rest =>
    cases htake
    exact h.of_takeOperands hwords hsettings

/-- What every option and operand keeps holds of the settings that are read. -/
theorem of_read {start : σ} (harguments : ∀ argument ∈ arguments, Spelled allowed argument)
    (hstart : kept start) (hread : interface.read start arguments = .ok after) : kept after := by
  obtain ⟨words, hwords, hread⟩ := exists_of_bind_eq_ok hread
  obtain ⟨progress, htake, hread⟩ := exists_of_bind_eq_ok hread
  have hkept : kept progress.settings :=
    h.of_takeWords (fits_of_sortWords_eq_ok harguments hwords) hstart htake
  split at hread
  · cases hread
  · split_ifs at hread
    cases hread
    exact hkept

end Keeps

end Interface

end CommandLine

/-! ## Paths without a NUL character -/

namespace Path

theorem mem_of_mem_pieces {chars piece : List Char} {c : Char} (h : piece ∈ pieces chars)
    (hc : c ∈ piece) : c ∈ chars := by
  induction chars generalizing piece with
  | nil => simp_all [pieces]
  | cons first rest ih =>
    rw [pieces] at h
    split at h
    · rcases List.mem_cons.1 h with rfl | h
      · cases hc
      · exact List.mem_cons_of_mem _ (ih h hc)
    · split at h
      · rw [List.mem_singleton.1 h] at hc
        exact List.mem_singleton.1 hc ▸ List.mem_cons_self
      · next head others hfound =>
        rcases List.mem_cons.1 h with rfl | h
        · -- The first piece has the character in front, and then what it had before.
          rcases List.mem_cons.1 hc with rfl | hc
          · exact List.mem_cons_self
          · exact List.mem_cons_of_mem _ (ih (hfound ▸ List.mem_cons_self) hc)
        · exact List.mem_cons_of_mem _ (ih (hfound ▸ List.mem_cons_of_mem _ h) hc)

theorem hasNul_eq_false_iff {path : Path} :
    path.hasNul = false ↔ ∀ part ∈ path.parts, '\x00' ∉ part.toList := by
  simp [hasNul]

theorem hasNul_ofText {text : String} (h : CommandLine.Spelled (· ≠ '\x00') text) :
    (ofText text).hasNul = false := by
  rw [hasNul_eq_false_iff]
  intro part hpart hnul
  obtain ⟨piece, hpiece, rfl⟩ := List.mem_map.1 hpart
  rw [String.toList_ofList] at hnul
  exact h _ (mem_of_mem_pieces (List.mem_filter.1 hpiece).1 hnul) rfl

end Path

/-! ## The settings of the compiler -/

namespace CommandLine.Settings

variable {settings : Settings} {arguments : List String} {allowed : Char → Prop}
  {kept : Settings → Prop}

/-- What the switch, the two options with a value and the operand keep, reading keeps. -/
theorem keeps_interface (hverbose : ∀ settings, kept settings →
      kept { settings with verbose := true })
    (hoption : ∀ apply ∈ [setOutput, setTapeSize], ∀ given settings after,
      (∀ text ∈ given, Spelled allowed text) → kept settings →
        apply given settings = .ok after → kept after)
    (hfile : ∀ text settings, Spelled allowed text → kept settings →
      kept { settings with file := Path.ofText text }) : interface.Keeps allowed kept where
  flag := by
    intro option hoption apply heffect
    simp only [interface, List.mem_cons, List.not_mem_nil, or_false] at hoption
    rcases hoption with rfl | rfl | rfl | rfl <;> cases heffect
    exact hverbose
  value := by
    intro option hmem apply heffect
    simp only [interface, List.mem_cons, List.not_mem_nil, or_false] at hmem
    rcases hmem with rfl | rfl | rfl | rfl <;> cases heffect
    · exact hoption setOutput (by simp)
    · exact hoption setTapeSize (by simp)
  one := by
    rintro name apply ⟨⟩
    exact hfile
  many := nofun

/-- Setting the size of the tape changes nothing else. -/
theorem exists_of_setTapeSize_eq_ok {given : Option String} {after : Settings}
    (h : setTapeSize given settings = .ok after) :
    ∃ tapeSize, after = { settings with tapeSize := tapeSize } ∧
      ∀ size, tapeSize = .value size → 0 < size ∧ Number.Writable size := by
  unfold setTapeSize at h
  split at h
  · cases h
    exact ⟨.nothing, rfl, nofun⟩
  · split at h
    · next size hsize =>
      cases h
      refine ⟨.value size, rfl, ?_⟩
      rintro _ ⟨⟩
      exact ⟨Number.pos_of_readPositive_eq_ok hsize, Number.writable_of_readPositive_eq_ok hsize⟩
    · cases h

/-- The size of the tape, unless it is missing, is a positive number within the digit limit, and
the output file, if one is given, was read from a text. -/
structure Proper (settings : Settings) : Prop where
  size : ∀ size, settings.tapeSize = .value size → 0 < size ∧ Number.Writable size
  output : ∀ path, settings.output = some (.value path) → ∃ text, path = Path.ofText text

theorem proper_of_read_eq_ok (h : read arguments = .ok settings) : settings.Proper := by
  have hkeeps : interface.Keeps (fun _ => True) Proper := by
    refine keeps_interface (fun _ h => ⟨h.size, h.output⟩) ?_ (fun _ _ _ h => ⟨h.size, h.output⟩)
    intro apply hmem given settings after _ hsettings happly
    simp only [List.mem_cons, List.not_mem_nil, or_false] at hmem
    rcases hmem with rfl | rfl
    · cases happly
      refine ⟨hsettings.size, fun path hpath => ?_⟩
      cases given with
      | none => cases hpath
      | some text =>
        cases hpath
        exact ⟨text, rfl⟩
    · obtain ⟨tapeSize, rfl, hsize⟩ := exists_of_setTapeSize_eq_ok happly
      exact ⟨hsize, hsettings.output⟩
  refine hkeeps.of_read (fun _ _ _ _ => trivial) ⟨?_, by rintro _ ⟨⟩⟩ h
  rintro _ ⟨⟩
  exact ⟨by decide, by decide +kernel⟩

/-- No path of the settings holds a NUL character. -/
structure NulFree (settings : Settings) : Prop where
  file : settings.file.hasNul = false
  output : ∀ path, settings.output = some (.value path) → path.hasNul = false

theorem nulFree_of_read_eq_ok (harguments : ∀ argument ∈ arguments, '\x00' ∉ argument.toList)
    (h : read arguments = .ok settings) : settings.NulFree := by
  have hkeeps : interface.Keeps (· ≠ '\x00') NulFree := by
    refine keeps_interface (fun _ h => ⟨h.file, h.output⟩) ?_ (fun text settings htext h =>
      ⟨Path.hasNul_ofText htext, h.output⟩)
    intro apply hmem given settings after hgiven hsettings happly
    simp only [List.mem_cons, List.not_mem_nil, or_false] at hmem
    rcases hmem with rfl | rfl
    · cases happly
      refine ⟨hsettings.file, fun path hpath => ?_⟩
      cases given with
      | none => cases hpath
      | some text =>
        cases hpath
        exact Path.hasNul_ofText (hgiven text rfl)
    · obtain ⟨tapeSize, rfl, -⟩ := exists_of_setTapeSize_eq_ok happly
      exact ⟨hsettings.file, hsettings.output⟩
  refine hkeeps.of_read (fun argument hmem c hc hnul => ?_) ⟨rfl, by rintro _ ⟨⟩⟩ h
  exact harguments argument hmem (hnul ▸ hc)

end CommandLine.Settings

end TapeCompiler
