/-
# Programs of one line for each instruction

A balanced program without input and output gives one line of text for each of its
instructions. So a position in the program is a line of the text, seven lines
further on, and the definition of a label stands on one line only, that of the
bracket that takes it.
-/

import TapeCompiler.Proofs.EmittedText

namespace TapeCompiler

open Brackets Assembly

variable {codes : List Instruction} {size p q m : Nat}

/-! ## Blocks of one line -/

/-- A program without input and output. -/
def Silent (codes : List Instruction) : Prop :=
  ∀ code ∈ codes, code ≠ .read ∧ code ≠ .write

instance : DecidablePred Silent := fun codes =>
  inferInstanceAs (Decidable (∀ code ∈ codes, code ≠ .read ∧ code ≠ .write))

/-- The line of an instruction that counts. -/
def countingLine? : Instruction → Option Line
  | .incCell => some .incCell
  | .decCell => some .decCell
  | .incCursor => some .incCursor
  | .decCursor => some .decCursor
  | _ => none

theorem blockAt_of_countingLine? {code : Instruction} {line : Line} (h : codes[q]? = some code)
    (hline : countingLine? code = some line) : blockAt codes q = [line] := by
  cases code with
  | incCell | decCell | incCursor | decCursor =>
    obtain rfl := Option.some.inj hline
    simp only [blockAt, h, simpleBlock]
  | _ => cases hline

/-- A balanced program without input and output has blocks of one line. -/
theorem exists_blockAt_eq (hsilent : Silent codes) (hbalanced : Balanced codes)
    (hq : q < codes.length) : ∃ line, blockAt codes q = [line] := by
  have hcode : codes[q]? = some codes[q] := List.getElem?_eq_getElem hq
  generalize codes[q] = code at hcode
  cases code with
  | loopStart => exact ⟨_, blockAt_loopStart hcode⟩
  | loopEnd =>
    obtain ⟨p, hpartners⟩ := hbalanced.1.exists_partners hcode
    exact ⟨_, blockAt_of_partners hpartners⟩
  | read => exact absurd rfl (hsilent _ (List.mem_of_getElem? hcode)).1
  | write => exact absurd rfl (hsilent _ (List.mem_of_getElem? hcode)).2
  | _ => exact ⟨_, blockAt_of_countingLine? hcode rfl⟩

theorem length_layout (hone : ∀ q < m, ∃ line, blockAt codes q = [line]) :
    (layout codes m).length = m := by
  induction m with
  | zero => rfl
  | succ m ih =>
    obtain ⟨line, hline⟩ := hone m (Nat.lt_succ_self m)
    rw [layout_succ, List.length_append, hline, List.length_singleton,
      ih fun q hq => hone q (Nat.lt_succ_of_lt hq)]

theorem getElem?_layout (hone : ∀ q < m, ∃ line, blockAt codes q = [line]) (hq : q < m) :
    (layout codes m)[q]? = (blockAt codes q)[0]? := by
  induction m with
  | zero => exact absurd hq (Nat.not_lt_zero q)
  | succ m ih =>
    have hbefore : ∀ q < m, ∃ line, blockAt codes q = [line] :=
      fun q hq => hone q (Nat.lt_succ_of_lt hq)
    have hlength := length_layout hbefore
    rw [layout_succ]
    rcases Nat.lt_or_eq_of_le (Nat.le_of_lt_succ hq) with hlt | rfl
    · rw [List.getElem?_append_left (by omega), ih hbefore hlt]
    · rw [List.getElem?_append_right (by omega), hlength, Nat.sub_self]

/-! ## Where a label is defined -/

/-- A later opening bracket has a greater label. -/
theorem labelAt_lt_labelAt (h : codes[q]? = some .loopStart) (hlt : q < p) :
    labelAt codes q < labelAt codes p := by
  have hsucc : labelAt codes (q + 1) = labelAt codes q + 1 := labelAt_succ h
  -- What stands up to the bracket at `q`, itself included, stands before `p`.
  have hbeginning : codes.take (q + 1) = (codes.take p).take (q + 1) := by
    rw [List.take_take, Nat.min_eq_left hlt]
  have hcount := (List.take_sublist (q + 1) (codes.take p)).count_le .loopStart
  rw [← hbeginning] at hcount
  simp only [labelAt] at hsucc ⊢
  omega

/-- A line that reads as the definition of a label is that definition. -/
theorem Line.eq_label_of_text_eq {line : Line} {id : Nat} (h : line.text = (Line.label id).text) :
    line = .label id := by
  have hchars := congrArg String.toList h
  unfold Line.text at hchars
  cases line with
  | label n =>
    rw [String.toList_append, String.toList_append] at hchars
    rw [nameOf_injective (String.toList_injective (List.append_cancel_right hchars))]
  | load register =>
    cases register <;> simp [nameOf, Line.render?, Register.loadText] at hchars
  | _ => simp [nameOf, jumpText, Line.render?] at hchars

/-- Only the bracket that takes a label defines it. -/
theorem eq_of_label_mem_blockAt (hp : codes[p]? = some .loopStart)
    (h : .label (labelAt codes p) ∈ blockAt codes q) : q = p := by
  have hmarks : .label (labelAt codes p) ∈ (blockAt codes q).filter Line.isMark :=
    List.mem_filter.2 ⟨h, rfl⟩
  cases hcode : codes[q]? with
  | none => simp [blockAt, hcode] at h
  | some code =>
    rw [filter_isMark_blockAt hcode] at hmarks
    split at hmarks
    · next hstart =>
      rw [hstart] at hcode
      rw [List.mem_singleton, Line.label.injEq] at hmarks
      -- Brackets at different positions have different labels.
      rcases Nat.lt_trichotomy q p with hlt | heq | hgt
      · have := labelAt_lt_labelAt hcode hlt
        omega
      · exact heq
      · have := labelAt_lt_labelAt hp hgt
        omega
    · cases hmarks

/-! ## The lines of a program -/

/-- The lines of the text of a program. -/
def programLines (size : Nat) (codes : List Instruction) : List String :=
  (prologue size ++ layout codes codes.length).map Line.text

section Lines

variable (hsilent : Silent codes) (hbalanced : Balanced codes)
include hsilent hbalanced

theorem length_programLines (size : Nat) :
    (programLines size codes).length = 7 + codes.length := by
  rw [programLines, List.length_map, List.length_append, length_prologue,
    length_layout fun q hq => exists_blockAt_eq hsilent hbalanced hq]

/-- The line of an instruction stands seven lines behind its position. -/
theorem getElem?_programLines (size : Nat) {line : Line} (hq : q < codes.length)
    (hline : blockAt codes q = [line]) : (programLines size codes)[7 + q]? = some line.text := by
  have hlayout := getElem?_layout (fun q hq => exists_blockAt_eq hsilent hbalanced hq) hq
  rw [hline] at hlayout
  rw [programLines, List.getElem?_map, List.getElem?_append_right (by simp), length_prologue,
    Nat.add_sub_cancel_left, hlayout]
  rfl

/-- The name of a label leads to the line of the bracket that takes it. -/
theorem idxOf?_label (size : Nat) (hp : codes[p]? = some .loopStart) :
    (programLines size codes).idxOf? (Line.label (labelAt codes p)).text = some (7 + p) := by
  have hlt : p < codes.length := (List.getElem?_eq_some_iff.1 hp).1
  have hline := getElem?_programLines hsilent hbalanced size hlt (blockAt_loopStart hp)
  obtain ⟨hbound, htext⟩ := List.getElem?_eq_some_iff.1 hline
  refine List.idxOf?_eq_some_iff.2 ⟨hbound, htext, fun j hj hfound => ?_⟩
  -- An earlier line of the same text would be the same line of assembly.
  have hearlier : (prologue size ++ layout codes codes.length)[j]? =
      some (.label (labelAt codes p)) := by
    simp only [programLines, List.getElem_map] at hfound
    rw [List.getElem?_eq_some_iff]
    exact ⟨_, Line.eq_label_of_text_eq hfound⟩
  rcases Nat.lt_or_ge j 7 with hprologue | hlayout
  · rw [List.getElem?_append_left hprologue] at hearlier
    -- The prologue defines no numbered label.
    have hmem := List.mem_of_getElem? hearlier
    simp [prologue] at hmem
  · rw [List.getElem?_append_right hlayout, length_prologue] at hearlier
    -- Behind the prologue a line belongs to a position, and only one position defines the label.
    have hq : j - 7 < codes.length := by omega
    rw [getElem?_layout (fun q hq => exists_blockAt_eq hsilent hbalanced hq) hq] at hearlier
    have heq := eq_of_label_mem_blockAt hp (List.mem_of_getElem? hearlier)
    omega

end Lines

/-- A balanced program gives a text with these lines. -/
theorem exists_generate_eq_ok_linesIn {size : Int} (hpos : 1 ≤ size)
    (hsize : Number.Writable size) (hloops : Number.Writable (codes.count .loopStart))
    (hbalanced : Balanced codes) :
    ∃ text, generate codes (.int size) = .ok text ∧
      linesIn text = programLines size.toNat codes := by
  have hcases := generated_generate hpos hsize hloops
  obtain ⟨text, hgenerate⟩ := hcases.exists_eq_ok_iff.2 hbalanced
  rw [hgenerate] at hcases
  cases hcases with
  | text _ => exact ⟨_, hgenerate, linesIn_textOf _⟩

end TapeCompiler
