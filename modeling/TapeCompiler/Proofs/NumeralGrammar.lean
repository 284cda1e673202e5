/-
# The grammar of numerals

A numeral is blanks, at most one sign, digits with single underscores between them, and
blanks again. It denotes what its digits denote in base ten, each by its own value whatever
script it is from, with the sign in front.

The reader goes once over the characters. It takes the blanks, then a sign, then all digits
and underscores that follow, and only then looks whether the underscores stand right, whether
the digits are too many and whether nothing but blanks is left. Blanks, signs, underscores and
digits have no character in common, so it cuts a numeral where the grammar cuts it, and accepts
the numerals within the digit limit and nothing else.
-/

import Mathlib.Data.Nat.Digits.Defs
import TapeCompiler.Proofs.NumeralRoundTrip

namespace TapeCompiler

/-! ## Classes of characters -/

namespace Text

variable {c : Char} {value : Nat}

theorem digitZeros_eq_of_near {base other : Nat} (hbase : base ∈ digitZeros)
    (hother : other ∈ digitZeros) (hbelow : base < other + 10) (habove : other < base + 10) :
    base = other := by
  have hapart : ∀ a ∈ digitZeros, ∀ b ∈ digitZeros, a = b ∨ a + 10 ≤ b ∨ b + 10 ≤ a := by
    decide +kernel
  rcases hapart base hbase other hother with heq | hlow | hhigh
  · exact heq
  · omega
  · omega

/-- The value of a digit is its distance from the zero of its script. -/
theorem digitValue?_eq_some_iff :
    digitValue? c = some value ↔ value < 10 ∧ ∃ base ∈ digitZeros, c.toNat = base + value := by
  constructor
  · intro h
    refine ⟨digitValue?_lt h, ?_⟩
    obtain ⟨base, hfind, rfl⟩ := Option.map_eq_some_iff.1 h
    have hrange := List.find?_some hfind
    simp only [Bool.and_eq_true, decide_eq_true_eq] at hrange
    exact ⟨base, List.mem_of_find?_eq_some hfind, by omega⟩
  · rintro ⟨hvalue, base, hbase, hc⟩
    cases hfind : digitZeros.find? fun other =>
        decide (other ≤ c.toNat) && decide (c.toNat < other + 10) with
    | none =>
      have hmiss := List.find?_eq_none.1 hfind base hbase
      simp only [Bool.and_eq_true, decide_eq_true_eq] at hmiss
      omega
    | some other =>
      have hrange := List.find?_some hfind
      simp only [Bool.and_eq_true, decide_eq_true_eq] at hrange
      have hsame : other = base :=
        digitZeros_eq_of_near (List.mem_of_find?_eq_some hfind) hbase (by omega) (by omega)
      rw [digitValue?, hfind, Option.map_some, Option.some_inj]
      omega

/-- The blanks among the first 128 characters. -/
theorem isBlank_iff_of_ascii (h : c.toNat < 128) :
    isBlank c = true ↔ c ∈ [' ', '\t', '\n', '\x0b', '\x0c', '\r'] := by
  have hascii : ∀ code < 128, isBlank (Char.ofNat code) = true ↔
      Char.ofNat code ∈ [' ', '\t', '\n', '\x0b', '\x0c', '\r'] := by decide +kernel
  have hc := hascii c.toNat h
  rwa [Char.ofNat_toNat] at hc

/-- No digit of any script is a blank. -/
theorem isBlank_of_digitValue?_eq_some (h : digitValue? c = some value) : isBlank c = false := by
  have hdigits : ∀ base ∈ digitZeros, ∀ value < 10,
      isBlank (Char.ofNat (base + value)) = false := by decide +kernel
  obtain ⟨hvalue, base, hbase, hc⟩ := digitValue?_eq_some_iff.1 h
  have hblank := hdigits base hbase value hvalue
  rwa [← hc, Char.ofNat_toNat] at hblank

theorem ne_of_digitValue?_eq_some {other : Char} (h : digitValue? c = some value)
    (hother : digitValue? other = none) : c ≠ other := by
  rintro rfl
  rw [h] at hother
  cases hother

end Text

namespace Number

open Text (digitValue? isBlank)

variable {run body behind : List Char} {values : List Nat} {n : Int} {c : Char}

/-! ## The grammar -/

/-- Digits with the values they stand for: a digit, then any number of digits, each with or
without one underscore in front of it. -/
inductive DigitRun : List Char → List Nat → Prop
  | last {c value} (digit : digitValue? c = some value) : DigitRun [c] [value]
  | cons {c value run values} (digit : digitValue? c = some value) (rest : DigitRun run values) :
    DigitRun (c :: run) (value :: values)
  | joint {c value run values} (digit : digitValue? c = some value) (rest : DigitRun run values) :
    DigitRun (c :: '_' :: run) (value :: values)

/-- What may stand in front of the digits. -/
inductive Sign
  | absent
  | plus
  | minus

/-- A sign as it is written. -/
def Sign.chars : Sign → List Char
  | absent => []
  | plus => ['+']
  | minus => ['-']

/-- A number with a sign in front of it. -/
def Sign.apply : Sign → Nat → Int
  | minus, n => -n
  | _, n => n

/-- Characters spell a number: blanks, a sign or none, digits within the limit, and blanks. The
first digit counts most. -/
inductive Spells : List Char → Int → Prop
  | intro (before : List Char) (sign : Sign) (run : List Char) (values : List Nat)
    (behind : List Char) (blankBefore : ∀ c ∈ before, isBlank c = true)
    (digits : DigitRun run values) (limit : values.length ≤ digitLimit)
    (blankBehind : ∀ c ∈ behind, isBlank c = true) :
    Spells (before ++ (sign.chars ++ (run ++ behind)))
      (sign.apply (Nat.ofDigits 10 values.reverse))

/-! ## Digits and underscores -/

/-- Adding up digits from the left gives their value in base ten. -/
theorem ofDigitValues_eq_ofDigits (values : List Nat) :
    ofDigitValues values = Nat.ofDigits 10 values.reverse := by
  rw [Nat.ofDigits_eq_foldr, List.foldr_reverse, ofDigitValues]
  congr 1
  funext total value
  exact Nat.add_comm _ _

theorem isDigitOrJoint_of_digitValue?_eq_some {value : Nat} (h : digitValue? c = some value) :
    isDigitOrJoint c = true := by
  simp [isDigitOrJoint, isDigit, h]

theorem not_isDigitOrJoint_of_isBlank (h : isBlank c = true) : isDigitOrJoint c = false := by
  have hjoint : c ≠ '_' := by
    rintro rfl
    exact absurd h (by decide)
  cases hdigit : digitValue? c with
  | none => simp [isDigitOrJoint, isDigit, hdigit, hjoint]
  | some value =>
    rw [Text.isBlank_of_digitValue?_eq_some hdigit] at h
    cases h

namespace DigitRun

theorem exists_eq_cons (h : DigitRun run values) :
    ∃ c value others, run = c :: others ∧ digitValue? c = some value := by
  cases h with
  | last digit => exact ⟨_, _, _, rfl, digit⟩
  | cons digit _ => exact ⟨_, _, _, rfl, digit⟩
  | joint digit _ => exact ⟨_, _, _, rfl, digit⟩

theorem isDigitOrJoint (h : DigitRun run values) : ∀ c ∈ run, isDigitOrJoint c = true := by
  induction h with
  | last digit => simpa using isDigitOrJoint_of_digitValue?_eq_some digit
  | cons digit _ ih =>
    exact List.forall_mem_cons.2 ⟨isDigitOrJoint_of_digitValue?_eq_some digit, ih⟩
  | joint digit _ ih =>
    have hjoint : Number.isDigitOrJoint '_' = true := by decide
    exact List.forall_mem_cons.2 ⟨isDigitOrJoint_of_digitValue?_eq_some digit,
      List.forall_mem_cons.2 ⟨hjoint, ih⟩⟩

theorem filterMap_digitValue? (h : DigitRun run values) :
    run.filterMap digitValue? = values := by
  have hjoint : digitValue? '_' = none := by decide
  induction h with
  | last digit => simp [digit]
  | cons digit _ ih => simp [digit, ih]
  | joint digit _ ih => simp [digit, hjoint, ih]

theorem jointsInside (h : DigitRun run values) : jointsInside run = true := by
  have hjoint : digitValue? '_' = none := by decide
  induction h with
  | last digit => simpa [Number.jointsInside] using Text.ne_of_digitValue?_eq_some digit hjoint
  | @cons c value run values digit rest ih =>
    obtain ⟨d, _, others, rfl, -⟩ := rest.exists_eq_cons
    have hc := Text.ne_of_digitValue?_eq_some digit hjoint
    simp [Number.jointsInside, hc, ih]
  | @joint c value run values digit rest ih =>
    obtain ⟨d, _, others, rfl, hd⟩ := rest.exists_eq_cons
    have hc := Text.ne_of_digitValue?_eq_some digit hjoint
    have hd := Text.ne_of_digitValue?_eq_some hd hjoint
    simp [Number.jointsInside, hc, hd, ih]

theorem isDigitRun (h : DigitRun run values) : isDigitRun run = true := by
  have hinside := h.jointsInside
  obtain ⟨c, _, others, rfl, hc⟩ := h.exists_eq_cons
  have hjoint := Text.ne_of_digitValue?_eq_some hc (by decide : digitValue? '_' = none)
  simp [Number.isDigitRun, hjoint, hinside]

end DigitRun

/-- What passes the test of the reader is a run of the grammar. -/
theorem digitRun_of_isDigitRun (hrun : ∀ c ∈ run, isDigitOrJoint c = true)
    (h : isDigitRun run = true) : DigitRun run (run.filterMap digitValue?) := by
  -- The induction is on the length, since an underscore takes the digit behind it along.
  induction hlength : run.length using Nat.strong_induction_on generalizing run with
  | _ length ih =>
    cases run with
    | nil => cases h
    | cons c rest =>
      obtain ⟨hc, hrest⟩ := List.forall_mem_cons.1 hrun
      simp only [isDigitRun, Bool.and_eq_true, bne_iff_ne, ne_eq] at h
      obtain ⟨hjoint, hinside⟩ := h
      obtain ⟨value, hvalue⟩ : ∃ value, digitValue? c = some value := by
        simpa [isDigitOrJoint, isDigit, hjoint, Option.isSome_iff_exists] using hc
      rw [List.filterMap_cons, hvalue]
      cases rest with
      | nil => exact .last hvalue
      | cons d others =>
        simp only [List.length_cons] at hlength
        simp only [jointsInside, Bool.and_eq_true] at hinside
        by_cases hd : d = '_'
        · subst hd
          have hothers := (List.forall_mem_cons.1 hrest).2
          rw [List.filterMap_cons, (by decide : digitValue? '_' = none)]
          refine .joint hvalue (ih others.length (by omega) hothers ?_ rfl)
          cases others with
          | nil => simp [jointsInside] at hinside
          | cons e others => simpa [isDigitRun, jointsInside] using hinside.2
        · refine .cons hvalue (ih (d :: others).length (by simp; omega) hrest ?_ rfl)
          simpa [isDigitRun, hd] using hinside.2

/-! ## Signs -/

theorem splitSign_append (sign : Sign) (hplus : body.head? ≠ some '+')
    (hminus : body.head? ≠ some '-') :
    ∃ negative, splitSign (sign.chars ++ body) = (negative, body) ∧
      ∀ n : Nat, sign.apply n = if negative then -(n : Int) else n := by
  cases sign with
  | absent =>
    refine ⟨false, ?_, fun _ => rfl⟩
    rw [Sign.chars, List.nil_append]
    unfold splitSign
    split
    · exact absurd rfl hminus
    · exact absurd rfl hplus
    · rfl
  | plus => exact ⟨false, rfl, fun _ => rfl⟩
  | minus => exact ⟨true, rfl, fun _ => rfl⟩

theorem exists_sign_of_splitSign_eq {chars : List Char} {negative : Bool}
    (h : splitSign chars = (negative, body)) :
    ∃ sign : Sign, chars = sign.chars ++ body ∧
      ∀ n : Nat, sign.apply n = if negative then -(n : Int) else n := by
  unfold splitSign at h
  split at h
  · cases h
    exact ⟨.minus, rfl, fun _ => rfl⟩
  · cases h
    exact ⟨.plus, rfl, fun _ => rfl⟩
  · cases h
    exact ⟨.absent, rfl, fun _ => rfl⟩

/-! ## Reading -/

variable {chars : List Char} {text : String}

theorem takeWhile_isDigitOrJoint_append (hrun : ∀ c ∈ run, isDigitOrJoint c = true)
    (hbehind : ∀ c ∈ behind, isBlank c = true) :
    (run ++ behind).takeWhile isDigitOrJoint = run ∧
      (run ++ behind).dropWhile isDigitOrJoint = behind := by
  rw [List.takeWhile_append_of_pos hrun, List.dropWhile_append_of_pos hrun]
  cases behind with
  | nil => simp
  | cons c others =>
    have hc := not_isDigitOrJoint_of_isBlank (hbehind c List.mem_cons_self)
    simp [hc]

theorem readChars_of_spells (h : Spells chars n) : readChars chars = .value n := by
  obtain ⟨before, sign, run, values, behind, hbefore, hdigits, hlimit, hbehind⟩ := h
  obtain ⟨c, value, others, rfl, hc⟩ := hdigits.exists_eq_cons
  -- A digit starts the run, so the blanks end before it and a sign is not taken twice.
  have hblanks : (before ++ (sign.chars ++ (c :: others ++ behind))).dropWhile isBlank =
      sign.chars ++ (c :: others ++ behind) := by
    rw [List.dropWhile_append_of_pos hbefore]
    have hc := Text.isBlank_of_digitValue?_eq_some hc
    cases sign <;> simp [Sign.chars, hc, (by decide : isBlank '+' = false),
      (by decide : isBlank '-' = false)]
  have hplus : (c :: others ++ behind).head? ≠ some '+' := by
    simpa using Text.ne_of_digitValue?_eq_some hc (by decide)
  have hminus : (c :: others ++ behind).head? ≠ some '-' := by
    simpa using Text.ne_of_digitValue?_eq_some hc (by decide)
  obtain ⟨negative, hsign, happly⟩ := splitSign_append sign hplus hminus
  obtain ⟨htake, hdrop⟩ := takeWhile_isDigitOrJoint_append hdigits.isDigitOrJoint hbehind
  have hrest : behind.all isBlank = true := List.all_eq_true.2 hbehind
  simp only [readChars, hblanks, hsign, htake, hdrop, hdigits.isDigitRun,
    hdigits.filterMap_digitValue?, if_true, if_neg (Nat.not_lt.2 hlimit), hrest, happly,
    ofDigitValues_eq_ofDigits]

theorem spells_of_readChars_eq_value (h : readChars chars = .value n) : Spells chars n := by
  simp only [readChars] at h
  generalize hsplit : splitSign (chars.dropWhile isBlank) = split at h
  obtain ⟨negative, body⟩ := split
  obtain ⟨sign, hsign, happly⟩ := exists_sign_of_splitSign_eq hsplit
  have hchars : chars = chars.takeWhile isBlank ++ (sign.chars ++
      (body.takeWhile isDigitOrJoint ++ body.dropWhile isDigitOrJoint)) := by
    rw [List.takeWhile_append_dropWhile, ← hsign, List.takeWhile_append_dropWhile]
  rw [← happly, ofDigitValues_eq_ofDigits] at h
  split_ifs at h with hrun hlimit hblank
  injection h with h
  have hdigits : DigitRun (body.takeWhile isDigitOrJoint) _ :=
    digitRun_of_isDigitRun (fun _ hc => List.mem_takeWhile_imp hc) hrun
  rw [hchars, ← h]
  exact .intro _ sign _ _ _ (fun _ hc => List.mem_takeWhile_imp hc) hdigits
    (Nat.not_lt.1 hlimit) (List.all_eq_true.1 hblank)

/-- The reader gives a number for exactly the texts that spell it. -/
theorem read_eq_value_iff : read text = .value n ↔ Spells text.toList n :=
  ⟨spells_of_readChars_eq_value, readChars_of_spells⟩

theorem Spells.unique {m : Int} (h : Spells chars n) (h' : Spells chars m) : n = m :=
  Reading.value.inj ((readChars_of_spells h).symm.trans (readChars_of_spells h'))

/-- A text that spells a number is taken or refused by the number. -/
theorem readPositive_of_spells (h : Spells text.toList n) :
    readPositive text = if 0 < n then .ok n.toNat else .error (.notPositive n) := by
  rw [readPositive, read_eq_value_iff.2 h]

theorem readPositive_of_not_spells (h : ∀ n, ¬ Spells text.toList n) :
    readPositive text = .error (.malformed text) := by
  cases hread : read text with
  | value n => exact absurd (read_eq_value_iff.1 hread) (h n)
  | tooLong digits => rw [readPositive, hread]
  | malformed => rw [readPositive, hread]

theorem readPositive_eq_ok_iff {v : Nat} :
    readPositive text = .ok v ↔ Spells text.toList v ∧ 0 < v := by
  by_cases hspells : ∃ n, Spells text.toList n
  · obtain ⟨n, hn⟩ := hspells
    rw [readPositive_of_spells hn]
    constructor
    · intro h
      split_ifs at h with hpos
      injection h with h
      have hv : (v : Int) = n := by omega
      exact ⟨hv ▸ hn, by omega⟩
    · rintro ⟨hv, hpos⟩
      have hn : n = v := hn.unique hv
      rw [if_pos (by omega), hn, Int.toNat_natCast]
  · rw [readPositive_of_not_spells (not_exists.1 hspells)]
    exact ⟨nofun, fun h => absurd ⟨_, h.1⟩ hspells⟩

theorem readPositive_eq_error_iff {error : PositiveError} :
    readPositive text = .error error ↔
      (∃ n ≤ 0, Spells text.toList n ∧ error = .notPositive n) ∨
        (∀ n, ¬ Spells text.toList n) ∧ error = .malformed text := by
  by_cases hspells : ∃ n, Spells text.toList n
  · obtain ⟨n, hn⟩ := hspells
    rw [readPositive_of_spells hn]
    constructor
    · intro h
      split_ifs at h with hpos
      injection h with h
      exact .inl ⟨n, by omega, hn, h.symm⟩
    · rintro (⟨m, hm, hspells, rfl⟩ | ⟨hnone, -⟩)
      · rw [hn.unique hspells, if_neg (by omega)]
      · exact absurd hn (hnone n)
  · have hnone := not_exists.1 hspells
    rw [readPositive_of_not_spells hnone]
    constructor
    · intro h
      exact .inr ⟨hnone, (Except.error.inj h).symm⟩
    · rintro (⟨m, -, hm, -⟩ | ⟨-, rfl⟩)
      · exact absurd hm (hnone m)
      · rfl

/-- **The texts of positive numbers.** A text is taken with a value exactly when it spells that
value and the value is positive. In every other case it is refused: for its value, which the
refusal shows, if it spells a number, and otherwise as no number, and then the refusal shows the
text. Among the first 128 characters six are blanks, and a digit of any script counts by its
distance from the zero of the script. The numeral of a positive number within the limit is taken
as that number. -/
theorem readPositive_accepts_grammar (text : String) :
    (∀ v : Nat, readPositive text = .ok v ↔ Spells text.toList v ∧ 0 < v) ∧
    (∀ error, readPositive text = .error error ↔
      (∃ n ≤ 0, Spells text.toList n ∧ error = .notPositive n) ∨
        (∀ n, ¬ Spells text.toList n) ∧ error = .malformed text) ∧
    (∀ n : Int, (PositiveError.notPositive n).message = "must be positive: " ++ toString n) ∧
    (PositiveError.malformed text).message = "invalid int value: " ++ Text.quote text ∧
    (∀ c : Char, c.toNat < 128 →
      (isBlank c = true ↔ c ∈ [' ', '\t', '\n', '\x0b', '\x0c', '\r'])) ∧
    (∀ (c : Char) (value : Nat), digitValue? c = some value ↔
      value < 10 ∧ ∃ base ∈ Text.digitZeros, c.toNat = base + value) ∧
    ∀ n : Nat, 1 ≤ n → Writable n → readPositive (toString n) = .ok n :=
  ⟨fun _ => readPositive_eq_ok_iff, fun _ => readPositive_eq_error_iff, fun _ => rfl, rfl,
    fun _ => Text.isBlank_iff_of_ascii, fun _ _ => Text.digitValue?_eq_some_iff,
    fun _ => readPositive_toString⟩

/-- Blanks of two kinds, a sign, digits of two scripts, an underscore and a leading zero. -/
theorem readPositive_accepts_grammar_two_scripts :
    Spells "\t+0_٣7\u2003".toList 37 ∧ readPositive "\t+0_٣7\u2003" = .ok 37 ∧
      readPositive (toString 37) = .ok 37 := by
  have hdigits : DigitRun ['0', '_', '٣', '7'] [0, 3, 7] :=
    .joint (by decide +kernel) (.cons (by decide +kernel) (.last (by decide +kernel)))
  have hspells : Spells "\t+0_٣7\u2003".toList 37 :=
    .intro ['\t'] .plus _ _ ['\u2003'] (List.forall_mem_singleton.2 (by decide)) hdigits
      (by decide) (List.forall_mem_singleton.2 (by decide))
  have hgrammar := readPositive_accepts_grammar "\t+0_٣7\u2003"
  exact ⟨hspells, (hgrammar.1 37).2 ⟨hspells, by decide⟩,
    hgrammar.2.2.2.2.2.2 37 (by decide) (by decide +kernel)⟩

end Number

end TapeCompiler
