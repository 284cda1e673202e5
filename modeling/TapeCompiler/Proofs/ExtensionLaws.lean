/-
# Laws of extensions

Changing the extension of a path touches its name only, and there only what stands behind the
stem. The new name splits at the dot that was put in: the extension holds no dot, so this dot is
the last one, it is not at the end, and the stem in front of it is not empty. So the stem survives
and a second change undoes the first. A name such as `.bf`, `a.` or `..` has no suffix of its own,
and all of it is stem.

A path that was read is told by its text, since no part of it is empty, a single dot or holds a
slash. So the texts that a run shows tell its files apart: the object file and the executable
never have one name, and either has the name of the assembly only if that has its suffix already.
-/

import TapeCompiler.Proofs.SourceKept

namespace TapeCompiler

namespace Path

variable {path renamed other : Path} {extension first second : String} {name stem : List Char}

/-! ## The text of a path -/

theorem pieces_eq_splitOn (chars : List Char) : pieces chars = chars.splitOn '/' := by
  induction chars with
  | nil => rfl
  | cons c rest ih =>
    have hsplit : (c :: rest).splitOn '/' = if c == '/' then [] :: rest.splitOn '/'
        else (rest.splitOn '/').modifyHead (c :: ·) := List.splitOnP_cons_eq_if_modifyHead c rest
    rw [pieces, ih, hsplit]
    by_cases hslash : c = '/'
    · simp [hslash]
    · rw [if_neg hslash, if_neg (by simpa using hslash)]
      cases hrest : rest.splitOn '/' with
      | nil => exact absurd hrest (List.splitOn_ne_nil _ _)
      | cons head others => rfl

/-- A path all of whose parts could have been read. -/
def IsNormal (path : Path) : Prop :=
  ∀ part ∈ path.parts, part ≠ "" ∧ part ≠ "." ∧ '/' ∉ part.toList

theorem isNormal_ofText (text : String) : (ofText text).IsNormal :=
  fun _ hpart => part_of_mem_ofText hpart

theorem isPart_toList {part : String} (h : part ≠ "") (hdot : part ≠ ".") :
    isPart part.toList = true := by
  simp only [isPart, Bool.and_eq_true, bne_iff_ne, ne_eq]
  refine ⟨by simpa using h, fun hchars => hdot ?_⟩
  rw [← String.toList_inj, hchars]
  rfl

/-- A path with parts is written as slashes that tell its root, and the parts joined by single
slashes behind them. -/
theorem exists_text_eq (root : Root) {parts : List String} (h : parts ≠ []) :
    ∃ count, rootOfSlashes count = root ∧ (⟨root, parts⟩ : Path).text.toList =
      List.replicate count '/' ++ ['/'].intercalate (parts.map String.toList) := by
  have hroot : ∃ count, rootOfSlashes count = root ∧
      root.text.toList = List.replicate count '/' := by
    cases root with
    | relative => exact ⟨0, rfl, rfl⟩
    | absolute => exact ⟨1, rfl, by decide⟩
    | doubled => exact ⟨2, rfl, by decide⟩
  obtain ⟨count, hcount, hslashes⟩ := hroot
  refine ⟨count, hcount, ?_⟩
  rw [text_of_parts_ne_nil h, String.toList_append, hslashes, String.toList_intercalate]
  rfl

theorem head?_intercalate_ne_slash {root : Root} {parts : List String}
    (h : IsNormal ⟨root, parts⟩) :
    (['/'].intercalate (parts.map String.toList)).head? ≠ some '/' := by
  cases parts with
  | nil => simp
  | cons part others =>
    obtain ⟨hsome, -, hslash⟩ := h part List.mem_cons_self
    obtain ⟨c, rest, hc⟩ : ∃ c rest, part.toList = c :: rest :=
      List.exists_cons_of_ne_nil (by simpa using hsome)
    rw [hc] at hslash
    have hne : c ≠ '/' := fun heq => hslash (heq ▸ List.mem_cons_self)
    cases others with
    | nil => simpa [hc] using hne
    | cons next others => simpa [List.intercalate_cons_cons, hc] using hne

theorem length_takeWhile_slash (count : Nat) {chars : List Char} (h : chars.head? ≠ some '/') :
    ((List.replicate count '/' ++ chars).takeWhile (· == '/')).length = count := by
  rw [List.takeWhile_append_of_pos (by simp)]
  cases chars with
  | nil => simp
  | cons c rest =>
    have hc : c ≠ '/' := by simpa using h
    simp [hc]

/-- Slashes in front make no part. -/
theorem filter_pieces_replicate (count : Nat) (chars : List Char) :
    (pieces (List.replicate count '/' ++ chars)).filter isPart =
      (pieces chars).filter isPart := by
  induction count with
  | zero => rfl
  | succ count ih =>
    rw [List.replicate_succ, List.cons_append, pieces, if_pos rfl,
      List.filter_cons_of_neg (by decide), ih]

theorem filter_pieces_intercalate {root : Root} {parts : List String} (hparts : parts ≠ [])
    (h : IsNormal ⟨root, parts⟩) :
    (pieces (['/'].intercalate (parts.map String.toList))).filter isPart =
      parts.map String.toList := by
  rw [pieces_eq_splitOn, List.splitOn_intercalate _ _ (by simpa using hparts),
    List.filter_eq_self]
  · simp only [List.forall_mem_map]
    exact fun part hpart => isPart_toList (h part hpart).1 (h part hpart).2.1
  · simp only [List.forall_mem_map]
    exact fun part hpart => (h part hpart).2.2

/-- The text of a path that could have been read is read as the path. -/
theorem ofText_text (h : path.IsNormal) : ofText path.text = path := by
  obtain ⟨root, parts⟩ := path
  by_cases hparts : parts = []
  · subst hparts
    cases root <;> decide
  · obtain ⟨count, hcount, htext⟩ := exists_text_eq root hparts
    rw [ofText, htext, length_takeWhile_slash count (head?_intercalate_ne_slash h), hcount,
      filter_pieces_replicate, filter_pieces_intercalate hparts h, List.map_map]
    simp

theorem text_inj (h : path.IsNormal) (hother : other.IsNormal) :
    path.text = other.text ↔ path = other := by
  refine ⟨fun htext => ?_, congrArg text⟩
  rw [← ofText_text h, htext, ofText_text hother]

/-! ## Stem and suffix -/

/-- An extension that makes up a whole suffix: it is not empty and holds neither a slash nor a
dot. -/
structure IsPlainExtension (extension : String) : Prop where
  isExtension : IsExtension extension
  noDot : '.' ∉ extension.toList

instance : DecidablePred IsPlainExtension := fun extension =>
  decidable_of_iff (IsExtension extension ∧ '.' ∉ extension.toList)
    ⟨fun ⟨h, hdot⟩ => ⟨h, hdot⟩, fun h => ⟨h.isExtension, h.noDot⟩⟩

theorem IsPlainExtension.toList_ne_nil (h : IsPlainExtension extension) :
    extension.toList ≠ [] := by
  simpa using h.isExtension.1

theorem splitSuffix_fst_ne_nil (h : name ≠ []) : (splitSuffix name).1 ≠ [] := by
  unfold splitSuffix
  split
  · dsimp only
    split
    · exact h
    · next hends => simpa using (not_or.1 hends).2
  · exact h

/-- A name splits at a dot that has a stem before it and an extension behind it. -/
theorem splitSuffix_append_extension (hstem : stem ≠ []) (h : IsPlainExtension extension) :
    splitSuffix (stem ++ '.' :: extension.toList) = (stem, '.' :: extension.toList) := by
  have hreverse : (stem ++ '.' :: extension.toList).reverse =
      extension.toList.reverse ++ '.' :: stem.reverse := by simp
  have hbehind : ∀ c ∈ extension.toList.reverse, (c != '.') = true := by
    intro c hc
    rw [bne_iff_ne]
    rintro rfl
    exact h.noDot (List.mem_reverse.1 hc)
  have hends : ¬ (extension.toList.reverse = [] ∨ stem.reverse = []) := by
    simpa using And.intro h.isExtension.1 hstem
  have htake : (extension.toList.reverse ++ '.' :: stem.reverse).takeWhile (· != '.') =
      extension.toList.reverse := by
    rw [List.takeWhile_append_of_pos hbehind]
    simp
  have hdrop : (extension.toList.reverse ++ '.' :: stem.reverse).dropWhile (· != '.') =
      '.' :: stem.reverse := by
    rw [List.dropWhile_append_of_pos hbehind]
    simp
  simp only [splitSuffix, hreverse, htake, hdrop, if_neg hends, List.reverse_reverse]

/-! ## A new extension -/

/-- The path with an extension behind the stem of its name. -/
def renamedTo (path : Path) (extension : String) : Path :=
  { path with
    parts := path.parts.dropLast ++
      [String.ofList ((splitSuffix path.name.toList).1 ++ '.' :: extension.toList)] }

theorem withExtension_eq_renamedTo (h : IsPlainExtension extension) (hname : path.name ≠ "") :
    path.withExtension extension = .ok (path.renamedTo extension) :=
  withExtension_of_name_ne_empty h.isExtension hname

@[simp] theorem name_renamedTo (path : Path) (extension : String) :
    (path.renamedTo extension).name =
      String.ofList ((splitSuffix path.name.toList).1 ++ '.' :: extension.toList) := by
  simp [renamedTo, name]

@[simp] theorem parent_renamedTo (path : Path) (extension : String) :
    (path.renamedTo extension).parent = path.parent := by
  simp [renamedTo, parent]

theorem name_renamedTo_ne_empty (path : Path) (extension : String) :
    (path.renamedTo extension).name ≠ "" := by
  rw [name_renamedTo, ne_eq, ← String.toList_eq_nil_iff]
  simp

section Named

variable (hname : path.name ≠ "")
include hname

theorem stem_ne_nil : (splitSuffix path.name.toList).1 ≠ [] :=
  splitSuffix_fst_ne_nil (by simpa using hname)

variable (h : IsPlainExtension first)
include h

theorem splitSuffix_name_renamedTo : splitSuffix (path.renamedTo first).name.toList =
    ((splitSuffix path.name.toList).1, '.' :: first.toList) := by
  rw [name_renamedTo, String.toList_ofList, splitSuffix_append_extension (stem_ne_nil hname) h]

theorem suffix_renamedTo : (path.renamedTo first).suffix = "." ++ first := by
  rw [suffix, splitSuffix_name_renamedTo hname h, ← String.toList_inj]
  simp

/-- A second extension takes the place of the first. -/
theorem renamedTo_renamedTo (second : String) :
    (path.renamedTo first).renamedTo second = path.renamedTo second := by
  rw [renamedTo, splitSuffix_name_renamedTo hname h]
  simp [renamedTo]

theorem renamedTo_inj (hsecond : IsPlainExtension second) :
    path.renamedTo first = path.renamedTo second ↔ first = second := by
  refine ⟨fun hsame => ?_, fun hsame => hsame ▸ rfl⟩
  have hsuffix := congrArg suffix hsame
  rw [suffix_renamedTo hname h, suffix_renamedTo hname hsecond] at hsuffix
  rw [← String.toList_inj]
  simpa using congrArg String.toList hsuffix

theorem renamedTo_eq_self_iff : path.renamedTo first = path ↔ path.suffix = "." ++ first := by
  rw [← withExtension_eq_self_iff h.isExtension, withExtension_eq_renamedTo h hname,
    Except.ok.injEq]

theorem isNormal_renamedTo (hpath : path.IsNormal) : (path.renamedTo first).IsNormal := by
  intro part hpart
  rcases List.mem_append.1 hpart with hpart | hpart
  · exact hpath part (List.dropLast_subset _ hpart)
  · rw [List.mem_singleton.1 hpart]
    refine ⟨fun hempty => ?_, fun hdot => ?_, fun hslash => ?_⟩
    · simpa using congrArg String.toList hempty
    · -- The new name has a stem and an extension beside the dot.
      have hlength := congrArg (fun text => text.toList.length) hdot
      simp only [String.toList_ofList, List.length_append, List.length_cons] at hlength
      have hstem := List.length_pos_iff.2 (stem_ne_nil hname)
      have hextension := List.length_pos_iff.2 h.toList_ne_nil
      have hone : ".".toList.length = 1 := rfl
      omega
    · rw [String.toList_ofList] at hslash
      rcases List.mem_append.1 hslash with hslash | hslash
      · refine (hpath _ (name_mem_parts hname)).2.2 ?_
        rw [← splitSuffix_append path.name.toList]
        exact List.mem_append_left _ hslash
      · rcases List.mem_cons.1 hslash with heq | hslash
        · exact absurd heq (by decide)
        · exact h.isExtension.2 hslash

end Named

end Path

/-! ## The laws -/

namespace CommandLine

open TapeCompiler.Path

variable {path : Path}

theorem outputPath_eq_file_iff {settings : Settings} (hunset : settings.output = none) :
    settings.outputPath = .ok (.value settings.file) ↔ settings.file.suffix = ".asm" := by
  rw [show ".asm" = "." ++ "asm" from rfl, ← withExtension_eq_self_iff (by decide),
    Settings.outputPath, hunset]
  cases settings.file.withExtension "asm" with
  | error error => simp [Except.map]
  | ok renamed => simp [Except.map]

/-- The commands for a path with a name speak of three files. -/
theorem toolchainHint_of_name_ne_empty (hname : path.name ≠ "") :
    toolchainHint path = .ok
      ["  nasm -f elf64 -o " ++ (path.renamedTo "o").text ++ " " ++ path.text,
        "  ld -o " ++ (path.renamedTo "exe").text ++ " " ++ (path.renamedTo "o").text] := by
  rw [toolchainHint, withExtension_eq_renamedTo (by decide) hname,
    withExtension_eq_renamedTo (by decide) hname]
  rfl

/-- **Laws of extensions.** Take a path that was read from a text, and extensions that are not
empty and hold neither a slash nor a dot. A new extension is refused exactly when the name is
empty. Otherwise the renamed path has the same parent and the extension for its suffix, and is
told by its text. A second extension takes the place of the first, two extensions give one path
only if they are the same, and the path stays as it is exactly if it had the extension. So the
derived output is the source file exactly for the suffix of assembly, and in the commands that
are shown the object file has the text of the assembly exactly for the suffix of objects, the
executable exactly for the suffix of executables, and these two never have one text. -/
theorem extension_laws (text : String) {first second : String} (hfirst : IsPlainExtension first)
    (hsecond : IsPlainExtension second) :
    ((∃ error, (ofText text).withExtension first = .error error) ↔ (ofText text).name = "") ∧
    ((ofText text).name ≠ "" → ∃ renamed,
      (ofText text).withExtension first = .ok renamed ∧
      renamed.parent = (ofText text).parent ∧ renamed.suffix = "." ++ first ∧
      ofText renamed.text = renamed ∧
      renamed.withExtension second = (ofText text).withExtension second ∧
      ((ofText text).withExtension second = .ok renamed → first = second) ∧
      (renamed = ofText text ↔ (ofText text).suffix = "." ++ first)) ∧
    (∀ settings : Settings, settings.file = ofText text → settings.output = none →
      (settings.outputPath = .ok (.value settings.file) ↔ (ofText text).suffix = ".asm")) ∧
    ((ofText text).name ≠ "" → ∃ object executable,
      (ofText text).withExtension "o" = .ok object ∧
      (ofText text).withExtension "exe" = .ok executable ∧
      toolchainHint (ofText text) = .ok
        ["  nasm -f elf64 -o " ++ object.text ++ " " ++ (ofText text).text,
          "  ld -o " ++ executable.text ++ " " ++ object.text] ∧
      (object.text = (ofText text).text ↔ (ofText text).suffix = ".o") ∧
      (executable.text = (ofText text).text ↔ (ofText text).suffix = ".exe") ∧
      object.text ≠ executable.text) := by
  have hnormal := isNormal_ofText text
  have ho : IsPlainExtension "o" := by decide
  have hexe : IsPlainExtension "exe" := by decide
  refine ⟨⟨fun ⟨error, herror⟩ => ?_, fun hname => ?_⟩, fun hname => ?_,
    fun settings hfile hunset => hfile ▸ outputPath_eq_file_iff hunset, fun hname => ?_⟩
  · by_contra hname
    rw [withExtension_eq_renamedTo hfirst hname] at herror
    cases herror
  · exact ⟨_, withExtension_of_name_eq_empty hfirst.isExtension hname⟩
  · refine ⟨_, withExtension_eq_renamedTo hfirst hname, parent_renamedTo _ _,
      suffix_renamedTo hname hfirst, ofText_text (isNormal_renamedTo hname hfirst hnormal), ?_,
      fun hsame => ?_, renamedTo_eq_self_iff hname hfirst⟩
    · rw [withExtension_eq_renamedTo hsecond (name_renamedTo_ne_empty _ _),
        withExtension_eq_renamedTo hsecond hname, renamedTo_renamedTo hname hfirst]
    · rw [withExtension_eq_renamedTo hsecond hname] at hsame
      exact ((renamedTo_inj hname hsecond hfirst).1 (Except.ok.inj hsame)).symm
  · have hobject := isNormal_renamedTo hname ho hnormal
    have hexecutable := isNormal_renamedTo hname hexe hnormal
    refine ⟨_, _, withExtension_eq_renamedTo ho hname, withExtension_eq_renamedTo hexe hname,
      toolchainHint_of_name_ne_empty hname, ?_, ?_, ?_⟩
    · rw [text_inj hobject hnormal, renamedTo_eq_self_iff hname ho]
      rfl
    · rw [text_inj hexecutable hnormal, renamedTo_eq_self_iff hname hexe]
      rfl
    · rw [ne_eq, text_inj hobject hexecutable, renamedTo_inj hname ho hexe]
      decide

/-- The name of this path is two dots, so it has no suffix and all of it is stem. -/
theorem extension_laws_two_dots :
    IsPlainExtension "asm" ∧ IsPlainExtension "bf" ∧ (ofText "/a/.//..").name ≠ "" ∧
      ∃ renamed, (ofText "/a/.//..").withExtension "asm" = .ok renamed ∧
        renamed.suffix = "." ++ "asm" ∧
        renamed.withExtension "bf" = (ofText "/a/.//..").withExtension "bf" := by
  have hasm : IsPlainExtension "asm" := by decide
  have hbf : IsPlainExtension "bf" := by decide
  have hname : (ofText "/a/.//..").name ≠ "" := by decide +kernel
  obtain ⟨renamed, hrenamed, -, hsuffix, -, hagain, -⟩ :=
    (extension_laws "/a/.//.." hasm hbf).2.1 hname
  exact ⟨hasm, hbf, hname, renamed, hrenamed, hsuffix, hagain⟩

end CommandLine

end TapeCompiler
