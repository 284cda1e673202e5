/-
# Comments

Every character that writes no instruction is comment. A text is a program with
comments in it, and all that counts of the text is the program: written out again it
is the text without its comments, and what is generated, a text or a failure, depends
on it alone. A failure names a bracket by its place in the program, or the number of
loops left open, so it does not move when comments are put in either.

Nothing else is forgotten. Texts from which the same assembly was made differ only in
their comments.
-/

import Mathlib.Data.List.Count
import TapeCompiler.Proofs.Decoding
import TapeCompiler.Proofs.FailingSources

namespace TapeCompiler

namespace Instruction

variable {c : Char} {codes : List Instruction} {chars : List Char} {first second : String}

/-- The characters that write instructions. -/
def characters : List Char := ['+', '-', '>', '<', '.', ',', '[', ']']

/-- A text without its comments. -/
def uncommented (text : String) : String :=
  String.ofList (text.toList.filter fun c => c ∈ characters)

/-- Characters that write instructions in order, with comments anywhere among them. -/
inductive Commented : List Instruction → List Char → Prop
  | nil : Commented [] []
  | comment {c : Char} {codes : List Instruction} {chars : List Char} (hc : c ∉ characters) :
    Commented codes chars → Commented codes (c :: chars)
  | code (code : Instruction) {codes : List Instruction} {chars : List Char} :
    Commented codes chars → Commented (code :: codes) (code.char :: chars)

/-! ## Characters -/

/-- The characters are just those that the instructions have. -/
theorem mem_characters_iff : c ∈ characters ↔ ∃ code : Instruction, code.char = c := by
  have htable : characters = all.map char := rfl
  rw [htable, List.mem_map]
  constructor
  · rintro ⟨code, -, hcode⟩
    exact ⟨code, hcode⟩
  · rintro ⟨code, hcode⟩
    exact ⟨code, mem_all code, hcode⟩

theorem char_mem_characters (code : Instruction) : code.char ∈ characters :=
  mem_characters_iff.2 ⟨code, rfl⟩

theorem ofChar?_eq_none_iff : ofChar? c = none ↔ c ∉ characters := by
  constructor
  · intro hnone hmem
    obtain ⟨code, rfl⟩ := mem_characters_iff.1 hmem
    rw [ofChar?_char] at hnone
    cases hnone
  · intro hmem
    cases hread : ofChar? c with
    | none => rfl
    | some code =>
      rw [ofChar?_eq_some_iff] at hread
      exact absurd (hread ▸ char_mem_characters code) hmem

/-! ## Texts -/

/-- Reading instructions among comments undoes putting the comments in. -/
theorem Commented.filterMap_eq (h : Commented codes chars) : chars.filterMap ofChar? = codes := by
  induction h with
  | nil => rfl
  | comment hc _ ih => rw [List.filterMap_cons_none (ofChar?_eq_none_iff.2 hc), ih]
  | code code _ ih => rw [List.filterMap_cons_some (ofChar?_char code), ih]

theorem commented_filterMap (chars : List Char) : Commented (chars.filterMap ofChar?) chars := by
  induction chars with
  | nil => exact .nil
  | cons c rest ih =>
    cases hread : ofChar? c with
    | none =>
      rw [List.filterMap_cons_none hread]
      exact .comment (ofChar?_eq_none_iff.1 hread) ih
    | some code =>
      rw [List.filterMap_cons_some hread]
      obtain rfl := ofChar?_eq_some_iff.1 hread
      exact .code code ih

/-- Every text is its own program with comments in it, and no other program. -/
theorem commented_iff {text : String} : Commented codes text.toList ↔ ofText text = codes := by
  constructor
  · exact Commented.filterMap_eq
  · rintro rfl
    exact commented_filterMap text.toList

/-- Without its comments a text is just the instructions written out. -/
theorem Commented.filter_eq (h : Commented codes chars) :
    (chars.filter fun c => c ∈ characters) = codes.map char := by
  induction h with
  | nil => rfl
  | comment hc _ ih => rw [List.filter_cons_of_neg (by simpa using hc), ih]
  | code code _ ih =>
    rw [List.filter_cons_of_pos (by simpa using char_mem_characters code), ih, List.map_cons]

theorem toList_uncommented (text : String) :
    (uncommented text).toList = (ofText text).map char := by
  rw [uncommented, String.toList_ofList]
  exact (commented_filterMap text.toList).filter_eq

theorem sourceOf_ofText (text : String) : sourceOf (ofText text) = uncommented text := by
  rw [sourceOf, ← toList_uncommented, String.ofList_toList]

/-- Texts hold the same program exactly if they differ in their comments only. -/
theorem ofText_eq_iff : ofText first = ofText second ↔ uncommented first = uncommented second := by
  constructor
  · intro h
    rw [← sourceOf_ofText, h, sourceOf_ofText]
  · intro h
    rw [← sourceOf_ofText, ← sourceOf_ofText] at h
    -- Writing out loses nothing, as reading takes it back.
    rw [← ofText_sourceOf (ofText first), h, ofText_sourceOf]

theorem count_uncommented (text : String) (code : Instruction) :
    (uncommented text).toList.count code.char = (ofText text).count code := by
  rw [toList_uncommented, List.count_map_of_injective _ _ fun _ _ => char_injective]

end Instruction

/-! ## Generation -/

open Instruction

variable {text : String} {size : Int}

theorem generateWhole_text (text : String) (size : Value) :
    generateWhole (.text text) size = generate (ofText text) size := rfl

/-- A failure names a closing bracket by its place in the text without comments, and loops left
open are counted there. -/
theorem place_of_generateWhole_eq_error (hpos : 1 ≤ size) (hsize : Number.Writable size)
    (hloops : Number.Writable ((uncommented text).toList.count '[')) {error : EmitError}
    (h : generateWhole (.text text) (.int size) = .error error) :
    (∃ i : Nat, error = .loops (.unmatchedEnd i) ∧ (uncommented text).toList[i]? = some ']') ∨
      error = .loops (.unclosed
        ((uncommented text).toList.count '[' - (uncommented text).toList.count ']')) := by
  have hopening : (uncommented text).toList.count '[' = (ofText text).count .loopStart :=
    count_uncommented text .loopStart
  have hclosing : (uncommented text).toList.count ']' = (ofText text).count .loopEnd :=
    count_uncommented text .loopEnd
  rw [hopening] at hloops
  have hcases := generated_generate hpos hsize hloops
  rw [generateWhole_text] at h
  rw [h] at hcases
  cases hcases with
  | unmatched i hcloses _ =>
    refine .inl ⟨i, rfl, ?_⟩
    rw [toList_uncommented, List.getElem?_map, hcloses]
    rfl
  | unclosed _ _ =>
    rw [hopening, hclosing]
    exact .inr rfl

/-- **Comments do not count.** Writing instructions and reading the text gives them back; reading a
text and writing its instructions gives the text without its comments; and texts put together are
read one after the other. So texts that differ only in their comments, wherever these stand, give
the same assembly or the same failure, whether they are read first or while the assembly is made.
A failure tells its place in the text without comments. Texts that give the same assembly differ
in nothing else. -/
theorem comments_do_not_count :
    (∀ codes, (Source.text (sourceOf codes)).filter = .ok codes) ∧
    (∀ text, (Source.text text).filter.map sourceOf = .ok (uncommented text)) ∧
    (∀ first second, (Source.text (first ++ second)).filter =
      do return (← (Source.text first).filter) ++ (← (Source.text second).filter)) ∧
    (∀ first second, uncommented first = uncommented second → ∀ size,
      generateWhole (.text first) size = generateWhole (.text second) size ∧
      generateEvents (Source.text first).events size =
        generateEvents (Source.text second).events size) ∧
    (∀ codes text, Commented codes text.toList → ∀ size,
      generateWhole (.text text) size = generate codes size ∧
      generateEvents (Source.text text).events size = generate codes size) ∧
    (∀ text (size : Int), 1 ≤ size → Number.Writable size →
      Number.Writable ((uncommented text).toList.count '[') → ∀ error,
      generateWhole (.text text) (.int size) = .error error →
      (∃ i : Nat, error = .loops (.unmatchedEnd i) ∧
        (uncommented text).toList[i]? = some ']') ∨
      error = .loops (.unclosed
        ((uncommented text).toList.count '[' - (uncommented text).toList.count ']'))) ∧
    ∀ first second size other output, generateWhole (.text first) size = .ok output →
      generateWhole (.text second) other = .ok output →
      uncommented first = uncommented second ∧ size = other := by
  -- Read whole or as it goes, a text is its instructions to the emitter.
  have hlazy (text : String) (size : Value) :
      generateEvents (Source.text text).events size = generate (ofText text) size := rfl
  refine ⟨fun codes => ?_, fun text => ?_, fun first second => ?_, ?_, ?_, ?_, ?_⟩
  · rw [Source.filter, ofText_sourceOf]
  · rw [Source.filter, Except.map, sourceOf_ofText]
  · rw [Source.filter, ofText_append]
    rfl
  · intro first second hsame size
    rw [generateWhole_text, generateWhole_text, hlazy, hlazy, ofText_eq_iff.2 hsame]
    exact ⟨rfl, rfl⟩
  · intro codes text hcommented size
    rw [generateWhole_text, hlazy, commented_iff.1 hcommented]
    exact ⟨rfl, rfl⟩
  · intro text size hpos hsize hloops error herror
    exact place_of_generateWhole_eq_error hpos hsize hloops herror
  · intro first second size other output hfirst hsecond
    -- The assembly is read back as the program and the size it was made from.
    obtain ⟨cells, rfl, hdecode⟩ := decode_of_generate_eq_ok hfirst
    obtain ⟨otherCells, rfl, hother⟩ := decode_of_generate_eq_ok hsecond
    rw [hdecode, Option.some.injEq, Prod.mk.injEq] at hother
    obtain ⟨rfl, hcodes⟩ := hother
    exact ⟨ofText_eq_iff.1 hcodes, rfl⟩

/-- A loop and two ways to comment it, one beyond the ASCII range. A bracket too many is the second
character of the text without comments. -/
theorem comments_do_not_count_loop :
    uncommented "[ é .]" = uncommented "loop: [.]" ∧
      (∃ output, generateWhole (.text "[ é .]") (.int 8) = .ok output ∧
        generateWhole (.text "loop: [.]") (.int 8) = .ok output) ∧
      Commented [.incCell, .loopEnd] "one + two ]".toList ∧
      generate [.incCell, .loopEnd] (.int 8) = .error (.loops (.unmatchedEnd 1)) ∧
      (uncommented "one + two ]").toList[1]? = some ']' := by
  obtain ⟨-, -, -, hsame, hcommented, hplace, -⟩ := comments_do_not_count
  have huncommented : uncommented "[ é .]" = uncommented "loop: [.]" := by decide
  have hsize : Number.Writable 8 := by decide +kernel
  have hloops : Number.Writable ((uncommented "one + two ]").toList.count '[') := by
    decide +kernel
  obtain ⟨output, houtput⟩ : ∃ output, generateWhole (.text "[ é .]") (.int 8) = .ok output :=
    (generated_generate (by decide) hsize (by decide +kernel)).exists_eq_ok_iff.2 (by decide)
  have hwoven : Commented [.incCell, .loopEnd] "one + two ]".toList :=
    commented_iff.2 (by decide)
  have herror : generate [.incCell, .loopEnd] (.int 8) = .error (.loops (.unmatchedEnd 1)) := by
    decide +kernel
  refine ⟨huncommented, ⟨output, houtput, (hsame _ _ huncommented _).1 ▸ houtput⟩, hwoven,
    herror, ?_⟩
  have hwhole := (hcommented _ _ hwoven (.int 8)).1.trans herror
  obtain ⟨i, hi, hclosing⟩ | hopen := hplace _ 8 (by decide) hsize hloops _ hwhole
  · rw [EmitError.loops.injEq, LoopError.unmatchedEnd.injEq] at hi
    obtain rfl : 1 = i := by omega
    exact hclosing
  · cases hopen

end TapeCompiler
