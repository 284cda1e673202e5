/-
# Numerals read back

A number is given to the compiler on its command line or in the settings of a case. Both
readers know more spellings than they need, with signs, blanks and other digits. On the
plain decimal numeral of a number within the digit limit they agree: the number itself
comes back.
-/

import TapeCompiler.CommandLine.Settings
import TapeCompiler.Document.Read
import TapeCompiler.Proofs.LineText
import Mathlib.Data.List.TakeWhile

namespace TapeCompiler

/-! ## Digits -/

namespace Text

variable {c : Char}

/-- The digits from `0` to `9` come first in the table of digits. -/
theorem digitValue?_of_isDigit (h : c.isDigit = true) :
    digitValue? c = some (c.toNat - 48) := by
  obtain ⟨hlow, hhigh⟩ := Number.toNat_of_isDigit h
  have hfirst : (decide (0x30 ≤ c.toNat) && decide (c.toNat < 0x30 + 10)) = true := by
    simp only [Bool.and_eq_true, decide_eq_true_eq]
    omega
  rw [digitValue?, digitZeros, List.find?_cons, hfirst]
  rfl

theorem isBlank_of_isDigit (h : c.isDigit = true) : isBlank c = false := by
  obtain ⟨hlow, hhigh⟩ := Number.toNat_of_isDigit h
  simp only [isBlank, Bool.or_eq_false_iff, Bool.and_eq_false_iff, beq_eq_false_iff_ne, ne_eq,
    decide_eq_false_iff_not]
  omega

end Text

namespace Number

variable {digits : List Char} {n : Nat}

theorem ne_of_isDigit {c other : Char} (h : c.isDigit = true) (hother : other.isDigit = false) :
    c ≠ other := by
  rintro rfl
  rw [h] at hother
  cases hother

theorem filterMap_digitValue? (h : ∀ c ∈ digits, c.isDigit = true) :
    digits.filterMap Text.digitValue? = digits.map fun c => c.toNat - 48 := by
  induction digits with
  | nil => rfl
  | cons c rest ih =>
    obtain ⟨hc, hrest⟩ := List.forall_mem_cons.1 h
    rw [List.filterMap_cons, Text.digitValue?_of_isDigit hc, ih hrest, List.map_cons]

theorem jointsInside_of_isDigit (h : ∀ c ∈ digits, c.isDigit = true) :
    jointsInside digits = true := by
  fun_induction jointsInside digits with
  | case1 => rfl
  | case2 c => simpa using ne_of_isDigit (h c (by simp)) (by decide : '_'.isDigit = false)
  | case3 c d rest ih =>
    have hc : c ≠ '_' := ne_of_isDigit (h c (by simp)) (by decide)
    rw [ih fun other hother => h other (List.mem_cons_of_mem _ hother)]
    simp [hc]

/-- A run of digits that is not too long is read as the number it denotes. -/
theorem readChars_of_isDigit (hsome : digits ≠ []) (h : ∀ c ∈ digits, c.isDigit = true)
    (hlength : digits.length ≤ digitLimit) :
    readChars digits = .value (Nat.ofDigitChars 10 digits 0) := by
  have hrun : ∀ c ∈ digits, isDigitOrJoint c = true := by
    intro c hc
    simp [isDigitOrJoint, isDigit, Text.digitValue?_of_isDigit (h c hc)]
  -- No blank and no sign stands in front of a digit.
  have hsplit : splitSign (digits.dropWhile Text.isBlank) = (false, digits) := by
    cases digits with
    | nil => exact absurd rfl hsome
    | cons c rest =>
      have hc := h c List.mem_cons_self
      rw [List.dropWhile_cons_of_neg (by simp [Text.isBlank_of_isDigit hc])]
      unfold splitSign
      split
      · next heq => exact absurd (List.cons.inj heq).1 (ne_of_isDigit hc (by decide))
      · next heq => exact absurd (List.cons.inj heq).1 (ne_of_isDigit hc (by decide))
      · rfl
  have hdigits : isDigitRun digits = true := by
    cases digits with
    | nil => exact absurd rfl hsome
    | cons c rest =>
      have hc : c ≠ '_' := ne_of_isDigit (h c List.mem_cons_self) (by decide)
      simp [isDigitRun, hc, jointsInside_of_isDigit h]
  have htake : digits.takeWhile isDigitOrJoint = digits := List.takeWhile_eq_self_iff.2 hrun
  have hdrop : digits.dropWhile isDigitOrJoint = [] := List.dropWhile_eq_nil_iff.2 hrun
  simp only [readChars, hsplit, htake, hdrop, hdigits, if_true, filterMap_digitValue? h,
    List.length_map, if_neg (Nat.not_lt.2 hlength), List.all_nil, ofDigitValues, List.foldl_map]
  rfl

theorem length_toDigits_le {limit : Nat} (hlimit : 0 < limit) (h : n < Nat.pow 10 limit) :
    (Nat.toDigits 10 n).length ≤ limit :=
  (Nat.length_toDigits_le_iff (by decide) hlimit).2 h

theorem isDigit_of_mem_toDigits {c : Char} (h : c ∈ Nat.toDigits 10 n) : c.isDigit = true :=
  Nat.isDigit_of_mem_toDigits (by decide) (by decide) h

theorem exists_toDigits_eq_cons (n : Nat) :
    ∃ c others, Nat.toDigits 10 n = c :: others ∧ c.isDigit = true := by
  cases hnumeral : Nat.toDigits 10 n with
  | nil => exact absurd hnumeral Nat.toDigits_ne_nil
  | cons c others =>
    have hmem : c ∈ Nat.toDigits 10 n := hnumeral ▸ List.mem_cons_self
    exact ⟨c, others, rfl, isDigit_of_mem_toDigits hmem⟩

/-- A positive number within the limit is read from its numeral. -/
theorem readPositive_toString (hpos : 0 < n) (h : Writable n) :
    readPositive (toString n) = .ok n := by
  have hlength : (Nat.toDigits 10 n).length ≤ digitLimit := length_toDigits_le (by decide) h
  have hread : read (toString n) = .value n := by
    rw [read, Nat.toString_eq_repr, Nat.toList_repr, readChars_of_isDigit Nat.toDigits_ne_nil
      (fun c => isDigit_of_mem_toDigits) hlength,
      Nat.ofDigitChars_toDigits (by decide) (by decide)]
  rw [readPositive, hread]
  simp [hpos]

/-- A numeral has no leading zero. -/
theorem head?_toDigits_ne_zero (hpos : 0 < n) : (Nat.toDigits 10 n).head? ≠ some '0' := by
  have hdigit : ∀ m < 10, 0 < m → Nat.digitChar m ≠ '0' := by decide
  induction n using Nat.strongRecOn with
  | ind n ih =>
    by_cases hsmall : n < 10
    · rw [Nat.toDigits_of_lt_base hsmall]
      simpa using hdigit n hsmall hpos
    · -- The last digit comes off, and the leading one is that of the quotient.
      have hhead := ih (n / 10) (by omega) (by omega)
      rw [Nat.toDigits_eq_if (by decide), if_neg hsmall, List.head?_append]
      cases hfirst : (Nat.toDigits 10 (n / 10)).head? with
      | none => exact absurd (List.head?_eq_none_iff.1 hfirst) Nat.toDigits_ne_nil
      | some c =>
        rw [hfirst] at hhead
        exact hhead

end Number

/-! ## Settings that hold a number -/

namespace Document

variable {n : Nat} {rest : List Char}

theorem wholeDigits_toDigits (hpos : 0 < n) :
    wholeDigits (Nat.toDigits 10 n ++ '}' :: rest) = Nat.toDigits 10 n := by
  have hdigits : ∀ c ∈ Nat.toDigits 10 n, c.isDigit = true :=
    fun c hc => Number.isDigit_of_mem_toDigits hc
  have hhead := Number.head?_toDigits_ne_zero hpos
  cases hnumeral : Nat.toDigits 10 n with
  | nil => exact absurd hnumeral Nat.toDigits_ne_nil
  | cons c others =>
    rw [hnumeral] at hdigits hhead
    have hc : c ≠ '0' := by simpa using hhead
    rw [List.cons_append, wholeDigits, ← List.cons_append, List.takeWhile_append_of_pos hdigits,
      List.takeWhile_cons_of_neg (by decide), List.append_nil]
    intro others' heq
    exact hc (List.cons.inj heq).1

/-- The numeral of a number within the limit is read as the number, up to the end of an object. -/
theorem scanNumber_toDigits (hpos : 0 < n) (h : Number.Writable n) (start : List Char) :
    scanNumber start false (Nat.toDigits 10 n ++ '}' :: rest) = .ok (.int n, '}' :: rest) := by
  have hsome : (Nat.toDigits 10 n).isEmpty = false := by simp
  have hafter : (Nat.toDigits 10 n ++ '}' :: rest).drop (Nat.toDigits 10 n).length = '}' :: rest :=
    List.drop_left
  have hfraction : fractionDigits ('}' :: rest) = [] := rfl
  have hexponent : exponentPart ('}' :: rest) = none := rfl
  have hlength : (Nat.toDigits 10 n).length ≤ Number.digitLimit :=
    Number.length_toDigits_le (by decide) h
  have hvalue : Number.Binary64.digitsValue (Nat.toDigits 10 n) = n :=
    Nat.ofDigitChars_toDigits (by decide) (by decide)
  simp only [scanNumber, wholeDigits_toDigits hpos, hafter, hfraction, hexponent, hsome, hvalue,
    List.isEmpty_nil, if_true, not_true_eq_false, if_false, Bool.false_eq_true,
    if_neg (Nat.not_lt.2 hlength)]

theorem afterWord?_of_isDigit {word : String} {c : Char} (hc : c.isDigit = true)
    (hword : word.toList.head?.any (fun first => !first.isDigit) = true) :
    afterWord? word (c :: rest) = none := by
  cases hletters : word.toList with
  | nil => simp [hletters] at hword
  | cons first letters =>
    have hfirst : first.isDigit = false := by simpa [hletters] using hword
    have hapart : (first == c) = false := by
      simpa using (Number.ne_of_isDigit hc hfirst).symm
    rw [afterWord?, hletters, List.isPrefixOf_cons_cons, hapart]
    rfl

theorem scanScalar_toDigits (hpos : 0 < n) (h : Number.Writable n) :
    scanScalar (Nat.toDigits 10 n ++ '}' :: rest) = .ok (.int n, '}' :: rest) := by
  have hnumber : scanNumber (Nat.toDigits 10 n ++ '}' :: rest) false
      (Nat.toDigits 10 n ++ '}' :: rest) = .ok (.int n, '}' :: rest) :=
    scanNumber_toDigits hpos h _
  obtain ⟨c, others, hnumeral, hc⟩ := Number.exists_toDigits_eq_cons n
  rw [hnumeral] at hnumber ⊢
  -- No word of the notation starts with a digit, so what stands here is a number.
  have hfirst : ∀ word ∈ words,
      word.1.toList.head?.any (fun first => !first.isDigit) = true := by decide
  have hnone : (words.findSome? fun word =>
      (afterWord? word.1 (c :: others ++ '}' :: rest)).map fun rest => (word.2, rest)) = none := by
    rw [List.findSome?_eq_none_iff]
    intro word hword
    rw [List.cons_append, afterWord?_of_isDigit hc (hfirst word hword)]
    rfl
  rw [scanScalar, hnone]
  · exact hnumber
  · intro others' heq
    exact Number.ne_of_isDigit hc (by decide) (List.cons.inj heq).1

/-- A word without quotes, backslashes and control characters is read as it stands. -/
theorem scanText_append {word : List Char}
    (h : ∀ c ∈ word, c ≠ '"' ∧ c ≠ '\\' ∧ 0x1f < c.toNat) (opening : List Char) (done : List Nat) :
    scanText opening done (word ++ '"' :: rest) =
      .ok (done.reverse ++ word.map Char.toNat, rest) := by
  induction word generalizing done with
  | nil => simp [scanText]
  | cons c others ih =>
    obtain ⟨⟨hquote, hslash, hcontrol⟩, hothers⟩ := List.forall_mem_cons.1 h
    rw [List.cons_append, scanText, if_neg (by omega), ih hothers]
    · simp
    · exact hquote
    all_goals intros; simp_all

/-- The text of settings that give the size of the tape and nothing else. -/
def sizeText (n : Nat) : String := "\x7b\"tape_size\": " ++ toString n ++ "\x7d"

theorem toList_sizeText (n : Nat) : (sizeText n).toList =
    '{' :: '"' :: ("tape_size".toList ++ '"' :: ':' :: ' ' :: (Nat.toDigits 10 n ++ ['}'])) := by
  simp [sizeText]

theorem skipSpaces_toDigits :
    skipSpaces (' ' :: (Nat.toDigits 10 n ++ rest)) = Nat.toDigits 10 n ++ rest := by
  obtain ⟨c, others, hnumeral, hc⟩ := Number.exists_toDigits_eq_cons n
  have hspace : isSpace c = false := by simp [isSpace, Number.ne_of_isDigit hc]
  rw [hnumeral, skipSpaces, List.dropWhile_cons_of_pos (by decide), List.cons_append,
    List.dropWhile_cons_of_neg (by simp [hspace])]

theorem scanValue_toDigits (hpos : 0 < n) (h : Number.Writable n) (room steps : Nat) :
    scanValue room (steps + 1) (Nat.toDigits 10 n ++ '}' :: rest) = .ok (.int n, '}' :: rest) := by
  have hscalar : scanScalar (Nat.toDigits 10 n ++ '}' :: rest) = .ok (.int n, '}' :: rest) :=
    scanScalar_toDigits hpos h
  obtain ⟨c, others, hnumeral, hc⟩ := Number.exists_toDigits_eq_cons n
  rw [hnumeral] at hscalar ⊢
  rw [List.cons_append, scanValue]
  · exact hscalar
  all_goals
    intro others' heq
    exact Number.ne_of_isDigit hc (by decide) (List.cons.inj heq).1

/-- Settings that give a size within the limit are read as that size. They are one container, so
some room is all it takes. -/
theorem read_sizeText (hpos : 0 < n) (h : Number.Writable n) {room : Nat} (hroom : room ≠ 0) :
    read room (sizeText n) = .ok (.object [("tape_size".toList.map Char.toNat, .int n)]) := by
  have hplain : ∀ c ∈ "tape_size".toList, c ≠ '"' ∧ c ≠ '\\' ∧ 0x1f < c.toNat := by simp
  have hmembers : ∀ room steps, scanMembers room (steps + 2) []
      ('"' :: ("tape_size".toList ++ '"' :: ':' :: ' ' :: (Nat.toDigits 10 n ++ ['}']))) =
        .ok (.object [("tape_size".toList.map Char.toNat, .int n)], []) := by
    intro room steps
    have hcolon : skipSpaces (':' :: ' ' :: (Nat.toDigits 10 n ++ ['}'])) =
        ':' :: ' ' :: (Nat.toDigits 10 n ++ ['}']) := rfl
    rw [scanMembers, scanText_append hplain]
    simp only [bind, Except.bind, hcolon, skipSpaces_toDigits, scanValue_toDigits hpos h]
    rfl
  have hvalue : ∀ steps, scanValue room (steps + 3) (sizeText n).toList =
      .ok (.object [("tape_size".toList.map Char.toNat, .int n)], []) := by
    intro steps
    rw [toList_sizeText, scanValue, if_neg hroom]
    exact hmembers _ steps
  have hlength : 0 < (sizeText n).toList.length := by simp [toList_sizeText]
  -- The reader is allowed steps by the length of the text; three of them are enough here.
  obtain ⟨steps, hsteps⟩ : ∃ steps, 2 * (sizeText n).toList.length + 2 = steps + 3 :=
    ⟨2 * (sizeText n).toList.length - 1, by omega⟩
  have hspaces : skipSpaces (sizeText n).toList = (sizeText n).toList := by
    rw [toList_sizeText]
    rfl
  have hmark : (sizeText n).toList.head? ≠ some '\ufeff' := by
    rw [toList_sizeText, List.head?_cons]
    decide
  have hscan : scan room (sizeText n).toList =
      .ok (.object [("tape_size".toList.map Char.toNat, .int n)]) := by
    rw [scan, if_neg hmark, hsteps, hspaces, hvalue]
    rfl
  rw [read, hscan]

end Document

end TapeCompiler
