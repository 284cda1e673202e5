/-
# When the size of the tape is missing

An option that takes a value is left without one in a single way: the separator is glued to its
name by an equals sign. Standing as a word of its own the separator is never taken for a value,
since only operands are, and the first separator is none; those behind it are operands, but no
option stands behind it to take them. The option for the size has no short name to which
something could be glued without the equals sign.

So the words tell whether a size can be missing: the name of the option, or a beginning of it that
stands for it, with an equals sign and the separator behind it. Without such a word the settings
hold a positive number within the digit limit.
-/

import Mathlib.Data.List.Infix
import TapeCompiler.Proofs.ArgumentValues

namespace TapeCompiler.CommandLine

/-! ## Names in words -/

section Names

variable {σ : Type} {interface : Interface σ} {option : OptionSpec σ} {hit : Hit σ}
  {text name value : String}

/-- A text that was split at an equals sign has it between the two halves. -/
theorem eq_append_of_splitAtEquals (h : splitAtEquals text = (name, some value)) :
    text = name ++ "=" ++ value := by
  simp only [splitAtEquals] at h
  split at h
  · cases h
  · next equals rest hdrop =>
    cases h
    have hequals : equals = '=' := by
      simpa [hdrop] using List.head?_dropWhile_not (· != '=') text.toList
    have hsplit := List.takeWhile_append_dropWhile (p := (· != '=')) (l := text.toList)
    rw [hdrop, hequals] at hsplit
    rw [← String.toList_inj]
    simpa using hsplit.symm

/-- A long name in front of an equals sign keeps its two dashes. -/
theorem dashes_prefix_of_splitAtEquals {rest : List Char} (htext : text.toList = '-' :: '-' :: rest)
    (h : splitAtEquals text = (name, some value)) : ['-', '-'] <+: name.toList := by
  simp only [splitAtEquals, htext] at h
  split at h
  · cases h
  · cases h
    simp

namespace Interface

theorem mem_names_of_mem_namedOptions {named : String × OptionSpec σ}
    (h : named ∈ interface.namedOptions) : named.1 ∈ named.2.names := by
  obtain ⟨option, -, hnamed⟩ := List.mem_flatMap.1 h
  obtain ⟨name, hname, rfl⟩ := List.mem_map.1 hnamed
  exact hname

theorem mem_names_of_option?_eq_some (h : interface.option? name = some option) :
    name ∈ option.names := by
  obtain ⟨named, hfind, rfl⟩ := Option.map_eq_some_iff.1 h
  have hname : named.1 = name := by simpa using List.find?_some hfind
  exact hname ▸ mem_names_of_mem_namedOptions (List.mem_of_find?_eq_some hfind)

/-- How a value comes to be glued to an option. -/
inductive Glues (option : OptionSpec σ) (text value : String) : Prop
  /-- By an equals sign behind a name of the option. -/
  | whole (name : String) (listed : name ∈ option.names) (word : text = name ++ "=" ++ value)
  /-- By an equals sign behind the beginning of a long name. -/
  | shortened (start name : String) (listed : name ∈ option.names)
    (dashes : ['-', '-'] <+: start.toList) (starts : start.toList <+: name.toList)
    (word : text = start ++ "=" ++ value)
  /-- Right behind a short name. -/
  | short (letter : Char) (listed : String.ofList ['-', letter] ∈ option.names)

theorem glues_of_mem_candidates (h : hit ∈ interface.candidates text)
    (hglued : hit.glued = some value) : Glues hit.option text value := by
  unfold candidates at h
  split at h
  · next htext =>
    obtain ⟨named, hnamed, rfl⟩ := List.mem_map.1 h
    obtain ⟨hmem, hstart⟩ := List.mem_filter.1 hnamed
    have hsplit : splitAtEquals text = ((splitAtEquals text).1, some value) := Prod.ext rfl hglued
    exact .shortened _ named.1 (mem_names_of_mem_namedOptions hmem)
      (dashes_prefix_of_splitAtEquals htext hsplit) (List.isPrefixOf_iff_prefix.1 hstart)
      (eq_append_of_splitAtEquals hsplit)
  · next letter rest _ _ =>
    obtain ⟨named, hnamed, rfl⟩ := List.mem_map.1 h
    obtain ⟨hmem, hname⟩ := List.mem_filter.1 hnamed
    refine .short letter ?_
    have hname : named.1 = String.ofList ['-', letter] := by
      rw [← String.toList_inj]
      simpa using hname
    exact hname ▸ mem_names_of_mem_namedOptions hmem
  · cases h

theorem glues_of_sortInexact_eq_ok {word : String}
    (h : interface.sortInexact text = .ok (.option word hit)) (hglued : hit.glued = some value) :
    Glues hit.option text value := by
  unfold sortInexact at h
  split at h
  · next found hcandidates =>
    cases h
    exact glues_of_mem_candidates (hcandidates ▸ List.mem_singleton_self _) hglued
  · split at h <;> cases h
  · cases h

/-- A value glued to an option stands in its word. -/
theorem glues_of_sortWord_eq_ok {word : String}
    (h : interface.sortWord text = .ok (.option word hit)) (hglued : hit.glued = some value) :
    Glues hit.option text value := by
  unfold sortWord at h
  split at h
  · split at h
    · cases h
      cases hglued
    · split at h
      · cases h
      · split at h
        · next name glued hsplit =>
          split at h
          · next option hfound =>
            cases h
            cases hglued
            exact .whole name (mem_names_of_option?_eq_some hfound)
              (eq_append_of_splitAtEquals hsplit)
          · exact glues_of_sortInexact_eq_ok h hglued
        · exact glues_of_sortInexact_eq_ok h hglued
  · cases h

theorem text_of_sortInexact_eq_ok {word : Word σ} (h : interface.sortInexact text = .ok word) :
    word.text = text := by
  unfold sortInexact at h
  split at h
  · cases h
    rfl
  · split at h <;> cases h <;> rfl
  · cases h

theorem text_of_sortWord_eq_ok {word : Word σ} (h : interface.sortWord text = .ok word) :
    word.text = text := by
  unfold sortWord at h
  split at h
  · split at h
    · cases h
      rfl
    · split at h
      · cases h
        rfl
      · split at h
        · split at h
          · cases h
            rfl
          · exact text_of_sortInexact_eq_ok h
        · exact text_of_sortInexact_eq_ok h
  · cases h
    rfl

/-- The separator does not come first among sorted words as an operand. -/
theorem head?_sortWords_ne {arguments : List String} {words : List (Word σ)}
    (h : interface.sortWords arguments = .ok words) : words.head? ≠ some (.operand "--") := by
  cases arguments with
  | nil =>
    cases h
    simp
  | cons argument rest =>
    rw [sortWords] at h
    split at h
    · cases h
      simp
    · next hseparator =>
      obtain ⟨word, hword, h⟩ := exists_of_bind_eq_ok h
      obtain ⟨others, -, h⟩ := exists_of_bind_eq_ok h
      cases h
      rintro ⟨⟩
      exact hseparator (text_of_sortWord_eq_ok hword).symm

theorem exists_short_of_clusterBehind_eq_ok {before : OptionSpec σ} {letters : List Char}
    {cluster : Cluster σ} {glued : Option String}
    (h : interface.clusterBehind before letters = .ok cluster)
    (hlast : cluster.last = some (option, glued)) :
    ∃ letter, String.ofList ['-', letter] ∈ option.names := by
  induction letters generalizing before cluster with
  | nil =>
    cases h
    cases hlast
  | cons letter rest ih =>
    rw [clusterBehind] at h
    split at h
    · cases h
    · next found hfound =>
      split at h
      · cases h
        cases hlast
        exact ⟨letter, mem_names_of_option?_eq_some hfound⟩
      · obtain ⟨behind, hbehind, h⟩ := exists_of_bind_eq_ok h
        cases h
        exact ih hbehind hlast

/-- The option of a word that takes a value is the one the word was found by, or one with a short
name that is joined to it. -/
theorem last_of_cluster_eq_ok {cluster : Cluster σ} {glued : Option String}
    (h : interface.cluster hit = .ok cluster) (hlast : cluster.last = some (option, glued)) :
    option = hit.option ∧ glued = hit.glued ∨
      ∃ letter, String.ofList ['-', letter] ∈ option.names := by
  unfold Interface.cluster at h
  split at h
  · cases h
    cases hlast
    exact .inl ⟨rfl, rfl⟩
  · cases h
    cases hlast
  · split_ifs at h
    exact .inr (exists_short_of_clusterBehind_eq_ok h hlast)

end Interface

end Names

/-! ## The option for the size -/

namespace Settings

open Interface

variable {settings after : Settings} {option : OptionSpec Settings} {hit : Hit Settings}
  {word value : String} {arguments : List String} {words : List (Word Settings)}

/-- A word that gives the separator as the size of the tape: the name of the option, or a
beginning of it from the two dashes on, with an equals sign and the separator behind it. -/
def OmitsSize (word : String) : Prop :=
  ∃ start ∈ "--tape-size".toList.inits, ['-', '-'] <+: start ∧ word.toList = start ++ "=--".toList

instance (word : String) : Decidable (OmitsSize word) :=
  inferInstanceAs (Decidable (∃ start ∈ "--tape-size".toList.inits, _ ∧ _))

/-- The option for the size of the tape. -/
def IsSizeOption (option : OptionSpec Settings) : Prop := option.names = ["--tape-size"]

theorem not_isSizeOption_of_short {letter : Char}
    (h : String.ofList ['-', letter] ∈ option.names) : ¬ IsSizeOption option := by
  intro hsize
  rw [IsSizeOption] at hsize
  rw [hsize, List.mem_singleton, ← String.toList_inj, String.toList_ofList] at h
  simpa using congrArg List.length h

theorem omitsSize_of_glues (hsize : IsSizeOption option) (h : Glues option word "--") :
    OmitsSize word := by
  have hname : ∀ name ∈ option.names, name = "--tape-size" := by
    rw [IsSizeOption] at hsize
    simp [hsize]
  cases h with
  | whole name hlisted hword =>
    obtain rfl := hname name hlisted
    exact ⟨_, (List.mem_inits _ _).2 List.prefix_rfl, by decide, by rw [hword]; rfl⟩
  | shortened start name hlisted hdashes hstart hword =>
    obtain rfl := hname name hlisted
    exact ⟨start.toList, (List.mem_inits _ _).2 hstart, hdashes, by simp [hword]⟩
  | short letter hletter => exact absurd hsize (not_isSizeOption_of_short hletter)

/-- In sorted words, no option for the size has the separator glued to it, and no operand that is
the separator stands right behind an option. -/
def SizeGiven : List (Word Settings) → Prop
  | [] => True
  | .option _ hit :: rest =>
    (hit.option ∈ interface.options ∧ (IsSizeOption hit.option → hit.glued ≠ some "--")) ∧
      rest.head? ≠ some (.operand "--") ∧ SizeGiven rest
  | _ :: rest => SizeGiven rest

theorem SizeGiven.tail {word : Word Settings} (h : SizeGiven (word :: words)) :
    SizeGiven words := by
  cases word with
  | option text hit => exact h.2.2
  | separator | operand _ | unknown _ => exact h

theorem SizeGiven.drop (h : SizeGiven words) (count : Nat) : SizeGiven (words.drop count) := by
  induction count generalizing words with
  | zero => exact h
  | succ count ih =>
    cases words with
    | nil => exact h
    | cons word rest => exact ih h.tail

theorem sizeGiven_map_operand (texts : List String) : SizeGiven (texts.map .operand) := by
  induction texts with
  | nil => trivial
  | cons text rest ih => exact ih

theorem sizeGiven_of_sortWords_eq_ok (h : ∀ argument ∈ arguments, ¬ OmitsSize argument)
    (hsort : interface.sortWords arguments = .ok words) : SizeGiven words := by
  induction arguments generalizing words with
  | nil =>
    cases hsort
    trivial
  | cons argument rest ih =>
    obtain ⟨hargument, hrest⟩ := List.forall_mem_cons.1 h
    rw [sortWords] at hsort
    split at hsort
    · -- Behind the separator no word is an option.
      cases hsort
      exact sizeGiven_map_operand rest
    · obtain ⟨word, hword, hsort⟩ := exists_of_bind_eq_ok hsort
      obtain ⟨others, hothers, hsort⟩ := exists_of_bind_eq_ok hsort
      cases hsort
      have hbehind := ih hrest hothers
      cases word with
      | option text hit =>
        have hfits : (Word.option text hit).Fits interface (fun _ => True) :=
          fits_of_sortWord_eq_ok (fun _ _ => trivial) hword
        refine ⟨⟨(hfits.2 text hit rfl).listed, fun hsize hglued => hargument ?_⟩,
          head?_sortWords_ne hothers, hbehind⟩
        exact omitsSize_of_glues hsize (glues_of_sortWord_eq_ok hword hglued)
      | separator | operand _ | unknown _ => exact hbehind

/-! ## Reading keeps the size -/

theorem tapeSize_of_applyAlone_eq_ok (hlisted : option ∈ interface.options)
    (h : applyAlone option settings = .ok after) : after.tapeSize = settings.tapeSize := by
  simp only [interface, List.mem_cons, List.not_mem_nil, or_false] at hlisted
  rcases hlisted with rfl | rfl | rfl | rfl <;> cases h <;> rfl

theorem tapeSize_of_foldlM_applyAlone {options : List (OptionSpec Settings)}
    (hlisted : ∀ option ∈ options, option ∈ interface.options)
    (h : options.foldlM (fun settings option => applyAlone option settings) settings =
      .ok after) : after.tapeSize = settings.tapeSize := by
  induction options generalizing settings with
  | nil =>
    cases h
    rfl
  | cons option rest ih =>
    obtain ⟨hoption, hrest⟩ := List.forall_mem_cons.1 hlisted
    rw [List.foldlM_cons] at h
    obtain ⟨next, hnext, h⟩ := exists_of_bind_eq_ok h
    exact (ih hrest h).trans (tapeSize_of_applyAlone_eq_ok hoption hnext)

/-- Only the separator as the value of the option for the size takes the size away. -/
theorem tapeSize_ne_of_applyValue_eq_ok (hlisted : option ∈ interface.options)
    (hvalue : IsSizeOption option → value ≠ "--") (hsize : settings.tapeSize ≠ .nothing)
    (h : applyValue option value settings = .ok after) : after.tapeSize ≠ .nothing := by
  simp only [interface, List.mem_cons, List.not_mem_nil, or_false] at hlisted
  rcases hlisted with rfl | rfl | rfl | rfl
  · cases h
  · cases h
    exact hsize
  · -- Given a text, the option sets a number or refuses.
    have hgiven : value ≠ "--" := hvalue rfl
    simp only [applyValue, sizeOption, if_neg hgiven, setTapeSize] at h
    split at h
    · next result hresult =>
      cases h
      split at hresult <;> cases hresult
      simp
    · cases h
  · cases h
    exact hsize

theorem tapeSize_ne_of_aloneThenValue {options : List (OptionSpec Settings)} {count used : Nat}
    (halone : ∀ option ∈ options, option ∈ interface.options)
    (hlisted : option ∈ interface.options) (hvalue : IsSizeOption option → value ≠ "--")
    (hsize : settings.tapeSize ≠ .nothing)
    (h : (do
      let middle ← options.foldlM (fun settings option => applyAlone option settings) settings
      let result ← applyValue option value middle
      return (result, count)) = .ok (after, used)) : after.tapeSize ≠ .nothing := by
  obtain ⟨middle, hmiddle, h⟩ := exists_of_bind_eq_ok h
  obtain ⟨result, hresult, h⟩ := exists_of_bind_eq_ok h
  cases h
  rw [← tapeSize_of_foldlM_applyAlone halone hmiddle] at hsize
  exact tapeSize_ne_of_applyValue_eq_ok hlisted hvalue hsize hresult

theorem tapeSize_ne_of_takeOption_eq_ok {following : List (Word Settings)} {used : Nat}
    (hlisted : hit.option ∈ interface.options)
    (hglued : IsSizeOption hit.option → hit.glued ≠ some "--")
    (hfollowing : following.head? ≠ some (.operand "--")) (hsize : settings.tapeSize ≠ .nothing)
    (h : interface.takeOption hit following settings = .ok (after, used)) :
    after.tapeSize ≠ .nothing := by
  obtain ⟨cluster, hcluster, h⟩ := exists_of_bind_eq_ok h
  have hhit : hit.Fits interface (fun _ => True) := ⟨hlisted, fun _ _ _ _ => trivial⟩
  obtain ⟨halone, hlast⟩ := fits_of_cluster_eq_ok hhit hcluster
  split at h
  · obtain ⟨middle, hmiddle, h⟩ := exists_of_bind_eq_ok h
    cases h
    rwa [tapeSize_of_foldlM_applyAlone halone hmiddle]
  · next option value hfound =>
    -- A value can also be glued to a short option that is joined to the word.
    have hvalue : IsSizeOption option → value ≠ "--" := by
      rintro hoption rfl
      rcases last_of_cluster_eq_ok hcluster hfound with ⟨rfl, hsame⟩ | ⟨letter, hletter⟩
      · exact hglued hoption hsame.symm
      · exact not_isSizeOption_of_short hletter hoption
    exact tapeSize_ne_of_aloneThenValue halone (hlast option _ hfound).1 hvalue hsize h
  · next option hfound =>
    split at h
    · next value _ _ =>
      have hvalue : value ≠ "--" := by
        rintro rfl
        exact hfollowing rfl
      exact tapeSize_ne_of_aloneThenValue halone (hlast option _ hfound).1 (fun _ => hvalue) hsize h
    · cases h

theorem tapeSize_takeOperands (progress : Progress Settings) :
    (interface.takeOperands words progress).settings.tapeSize = progress.settings.tapeSize := by
  unfold takeOperands
  split
  · rfl
  · simp only [interface]
    split <;> rfl

/-- One word at a time, a size stays given. -/
theorem tapeSize_ne_of_takeWords_eq_ok {progress final : Progress Settings}
    (hwords : SizeGiven words) (hsize : progress.settings.tapeSize ≠ .nothing)
    (h : interface.takeWords words progress = .ok final) : final.settings.tapeSize ≠ .nothing := by
  fun_induction takeWords interface words progress with
  | case1 progress =>
    cases h
    rwa [tapeSize_takeOperands]
  | case2 progress text rest ih => exact ih hwords hsize h
  | case3 => cases h
  | case4 progress text hit rest settings used hoption ih =>
    obtain ⟨⟨hlisted, hglued⟩, hfollowing, hrest⟩ := hwords
    refine ih (hrest.drop used) ?_ h
    exact tapeSize_ne_of_takeOption_eq_ok hlisted hglued hfollowing hsize hoption
  | case5 progress word rest _ _ _ _ ih => exact ih hwords.tail hsize h
  -- The command takes one operand, and that only sets the file.
  | case6 progress word rest _ _ _ _ name apply hoperand ih =>
    refine ih hwords.tail ?_ h
    cases hoperand
    exact hsize
  | case7 progress word rest _ _ _ _ apply hoperand => cases hoperand
  | case8 progress word rest =>
    cases h
    rwa [tapeSize_takeOperands]

/-- Unless a word gives the separator for it, there is a size. -/
theorem tapeSize_ne_nothing_of_read_eq_ok
    (hwords : ∀ argument ∈ arguments, ¬ OmitsSize argument) (h : read arguments = .ok settings) :
    settings.tapeSize ≠ .nothing := by
  obtain ⟨words, hsort, h⟩ := exists_of_bind_eq_ok h
  obtain ⟨progress, htake, h⟩ := exists_of_bind_eq_ok h
  have hkept : progress.settings.tapeSize ≠ .nothing :=
    tapeSize_ne_of_takeWords_eq_ok (sizeGiven_of_sortWords_eq_ok hwords hsort)
      (by rintro ⟨⟩) htake
  split at h
  · cases h
  · split_ifs at h
    cases h
    exact hkept

/-- A size that is there is a positive number within the digit limit. -/
theorem exists_size_of_read_eq_ok (h : read arguments = .ok settings)
    (hgiven : settings.tapeSize ≠ .nothing) :
    ∃ size, settings.tapeSize = .value size ∧ 0 < size ∧ Number.Writable size := by
  cases hsize : settings.tapeSize with
  | value size => exact ⟨size, rfl, (proper_of_read_eq_ok h).size size hsize⟩
  | nothing => exact absurd hsize hgiven

end Settings

end TapeCompiler.CommandLine
