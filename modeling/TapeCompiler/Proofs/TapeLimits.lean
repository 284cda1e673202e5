/-
# The limits on the size of a tape

Three places look at the size of a tape. The command line takes a numeral of at most so many
digits that denotes a positive number; the emitter takes any positive number; the prologue writes
the size and the half of it, and fails if they are too long. What the command line takes is within
the limit of the prologue, however many zeros and underscores the numeral has, so a size from the
command line fails in neither of the later places. A caller who goes around the command line can
give a larger size, and then a run stops at the third line, before it looks at the program.

The one gap is the separator: given as the value of the option it leaves no size at all, and the
emitter refuses that.
-/

import TapeCompiler.Proofs.FileOutput
import TapeCompiler.Proofs.MissingSize

namespace TapeCompiler

open Assembly CommandLine

/-- The failure is that of a value out of its range: a size that is none, a number too long to be
written, or one that is no code point. -/
def EmitError.IsOutOfRange : EmitError → Prop
  | badTapeSize _ | unwritable | source .noCodePoint => True
  | _ => False

namespace Emitter

variable {emitter stopped : Emitter} {error : EmitError} {line : Line} {lines : List Line}
  {size : Int} {codes : List Instruction} {sink : Sink}

/-! ## Sinks that fail -/

theorem not_isOutOfRange_of_put_eq_error {piece : String}
    (h : put piece emitter = .error error stopped) : ¬ error.IsOutOfRange := by
  unfold put at h
  split at h
  · cases h
    exact id
  · split at h <;> cases h
    exact id

theorem not_isOutOfRange_of_emitText_eq_error {text : String}
    (h : emitText text emitter = .error error stopped) : ¬ error.IsOutOfRange := by
  rw [emitText] at h
  cases hfirst : put text emitter with
  | error error middle =>
    rw [bind_of_error hfirst] at h
    cases h
    exact not_isOutOfRange_of_put_eq_error hfirst
  | ok _ middle =>
    rw [bind_of_ok hfirst] at h
    cases hsecond : put "\n" middle with
    | error error last =>
      rw [bind_of_error hsecond] at h
      cases h
      exact not_isOutOfRange_of_put_eq_error hsecond
    | ok _ last =>
      rw [bind_of_ok hsecond] at h
      cases h

/-- Lines within the limit fail only where the sink fails. -/
theorem not_isOutOfRange_of_emitAll_eq_error (hlines : ∀ line ∈ lines, line.Writable)
    (h : emitAll lines emitter = .error error stopped) : ¬ error.IsOutOfRange := by
  induction lines generalizing emitter with
  | nil => cases h
  | cons line rest ih =>
    obtain ⟨hline, hrest⟩ := List.forall_mem_cons.1 hlines
    have hemit : emit line = emitText line.text := by
      rw [emit, Line.render?_eq_some_text hline]
    rw [emitAll, hemit] at h
    cases hfirst : emitText line.text emitter with
    | error error middle =>
      rw [bind_of_error hfirst] at h
      cases h
      exact not_isOutOfRange_of_emitText_eq_error hfirst
    | ok _ middle =>
      rw [bind_of_ok hfirst] at h
      exact ih hrest h

/-! ## Sizes -/

theorem isOutOfRange_of_create_of_not_pos (h : size ≤ 0) :
    ∃ error, create (.int size) = .error error ∧ error.IsOutOfRange := by
  rw [create_of_not_pos h]
  cases Number.numeral? size with
  | none => exact ⟨_, rfl, trivial⟩
  | some shown => exact ⟨_, rfl, trivial⟩

/-- A run into a working sink fails for its size exactly if the size cannot be written. -/
theorem exists_run_isOutOfRange_iff (hsink : sink.quota = none)
    (hloops : Number.Writable (codes.count .loopStart)) :
    (∃ error stopped, run (codes.map .ok) sink emitter = .error error stopped ∧
      error.IsOutOfRange) ↔ ¬ Number.Writable emitter.tapeSize := by
  constructor
  · rintro ⟨error, stopped, hrun, hrange⟩ hsize
    -- A run within the limits fails for brackets only.
    have hended := ended_run hsink hsize hloops
    rw [hrun] at hended
    cases hended with
    | unclosed | unmatched => exact hrange
  · intro hsize
    exact ⟨_, _, run_of_not_writable _ hsink hsize, trivial⟩

/-- **The limits on the size agree.** Whatever the command line takes has a size from one up to the
digit limit, or none at all, and none only if a word gives the separator for it. For every positive
number there is an emitter; within the limit no prologue for a tape of that size fails for a value
out of range, and a run into a working sink over a program whose labels can be written fails so
exactly if the number is beyond the limit. Then every run, over any source, stops behind the same
two lines with no loop opened. Other numbers are refused. -/
theorem tapeSize_limits_agree (arguments : List String) (size : Int) :
    (∀ settings, Settings.read arguments = .ok settings →
      (settings.tapeSize ≠ .nothing →
        ∃ given : Nat, settings.tapeSize = .value given ∧ settings.tapeValue = .int given ∧
          1 ≤ given ∧ given < Nat.pow 10 Number.digitLimit) ∧
      ((∀ argument ∈ arguments, ¬ Settings.OmitsSize argument) →
        settings.tapeSize ≠ .nothing)) ∧
    (1 ≤ size →
      (∃ emitter, create (.int size) = .ok emitter ∧ emitter.tapeSize = size) ∧
      ∀ emitter : Emitter, emitter.tapeSize = size →
        (size < (Nat.pow 10 Number.digitLimit : Nat) → ∀ error stopped,
          emitPrologue emitter = .error error stopped → ¬ error.IsOutOfRange) ∧
        ∀ sink : Sink, sink.quota = none →
          (∀ codes : List Instruction, codes.count .loopStart < Nat.pow 10 Number.digitLimit →
            ((∃ error stopped, run (codes.map .ok) sink emitter = .error error stopped ∧
              error.IsOutOfRange) ↔ (Nat.pow 10 Number.digitLimit : Nat) ≤ size)) ∧
          ((Nat.pow 10 Number.digitLimit : Nat) ≤ size →
            ∃ stopped, (∀ events, run events sink emitter = .error .unwritable stopped) ∧
              stopped.text? = some (sink.text ++ "section .bss\n  tape_ptr RESQ 1\n") ∧
              stopped.lines = 2 ∧ stopped.openLoops = [] ∧ stopped.nextLabel = 1)) ∧
    (size ≤ 0 → ∃ error, create (.int size) = .error error ∧ error.IsOutOfRange) := by
  refine ⟨fun settings hread => ⟨fun hgiven => ?_, fun hwords => ?_⟩, fun hsize => ?_,
    isOutOfRange_of_create_of_not_pos⟩
  · obtain ⟨size, hsize, hpos, hlimit⟩ := Settings.exists_size_of_read_eq_ok hread hgiven
    exact ⟨size, hsize, by rw [Settings.tapeValue, hsize], hpos, hlimit⟩
  · exact Settings.tapeSize_ne_nothing_of_read_eq_ok hwords hread
  · obtain ⟨size, rfl⟩ := Int.eq_ofNat_of_zero_le (by omega : 0 ≤ size)
    have hpos : 0 < size := by omega
    refine ⟨⟨.ofSize size hpos, create_natCast hpos, rfl⟩, fun emitter htape => ?_⟩
    obtain rfl : emitter.tapeSize = size := Int.ofNat_inj.1 htape
    refine ⟨fun hlimit error stopped hprologue => ?_,
      fun sink hsink => ⟨fun codes hloops => ?_, fun hlong => ?_⟩⟩
    · have hwritable : Number.Writable emitter.tapeSize := Int.ofNat_lt.1 hlimit
      exact not_isOutOfRange_of_emitAll_eq_error
        (fun line hline => writable_of_mem_prologue hwritable hline) hprologue
    · rw [exists_run_isOutOfRange_iff hsink hloops, Int.ofNat_le]
      exact Nat.not_lt
    · have hlimit : ¬ Number.Writable emitter.tapeSize := Nat.not_lt.2 (Int.ofNat_le.1 hlong)
      exact ⟨_, fun events => run_of_not_writable events hsink hlimit, text?_delivered _ _,
        rfl, rfl, rfl⟩

/-- A shortened name, with a leading zero and an underscore in the numeral; the separator for a size
that is given again behind it; a size at the limit, with a program whose brackets do not pair up;
and no size. -/
theorem tapeSize_limits_agree_at_the_limit :
    (Settings.read ["--tape=0_8", "p.bf"] = .ok ⟨Path.ofText "p.bf", none, .value 8, false⟩ ∧
      (∀ argument ∈ ["--tape=0_8", "p.bf"], ¬ Settings.OmitsSize argument) ∧
      ∃ size : Nat, Given.value 8 = .value size ∧ 1 ≤ size ∧
        size < Nat.pow 10 Number.digitLimit) ∧
    (Settings.read ["--tape=--", "p.bf", "--tape=9"] =
        .ok ⟨Path.ofText "p.bf", none, .value 9, false⟩ ∧
      ∃ size : Nat, Given.value 9 = .value size ∧ 1 ≤ size ∧
        size < Nat.pow 10 Number.digitLimit) ∧
    (∃ emitter, create (.int (Nat.pow 10 Number.digitLimit : Nat)) = .ok emitter ∧
      ∃ error stopped, run ((Instruction.ofText "+]").map .ok) .empty emitter =
        .error error stopped ∧ error.IsOutOfRange) ∧
    ∃ error, create (.int 0) = .error error ∧ error.IsOutOfRange := by
  have hread : Settings.read ["--tape=0_8", "p.bf"] =
      .ok ⟨Path.ofText "p.bf", none, .value 8, false⟩ :=
    eq_ok_of_toOption_eq_some (by decide +kernel)
  have hwords : ∀ argument ∈ ["--tape=0_8", "p.bf"], ¬ Settings.OmitsSize argument := by
    decide +kernel
  have hagain : Settings.read ["--tape=--", "p.bf", "--tape=9"] =
      .ok ⟨Path.ofText "p.bf", none, .value 9, false⟩ :=
    eq_ok_of_toOption_eq_some (by decide +kernel)
  obtain ⟨haccepted, -, hrefused⟩ := tapeSize_limits_agree ["--tape=0_8", "p.bf"] 0
  obtain ⟨hgivenAgain, hgiven, -⟩ := tapeSize_limits_agree ["--tape=--", "p.bf", "--tape=9"]
    (Nat.pow 10 Number.digitLimit : Nat)
  obtain ⟨hsized, hnamed⟩ := haccepted _ hread
  obtain ⟨size, hsize, -, hrange⟩ := hsized (hnamed hwords)
  obtain ⟨other, hother, -, hbounds⟩ := (hgivenAgain _ hagain).1 (by rintro ⟨⟩)
  obtain ⟨⟨emitter, hcreate, htape⟩, hruns⟩ := hgiven (by decide +kernel)
  refine ⟨⟨hread, hwords, size, hsize, hrange⟩, ⟨hagain, other, hother, hbounds⟩,
    ⟨emitter, hcreate, ?_⟩, hrefused (Int.le_refl 0)⟩
  exact (((hruns emitter htape).2 .empty rfl).1 _ (by decide +kernel)).2 (Int.le_refl _)

/-- The separator as the size: the command line takes it, and the emitter refuses what it leaves. -/
theorem missing_size_refused :
    Settings.read ["p.bf", "--tape-size=--"] = .ok ⟨Path.ofText "p.bf", none, .nothing, false⟩ ∧
      ∃ error, create (Settings.tapeValue ⟨Path.ofText "p.bf", none, .nothing, false⟩) =
        .error error ∧ error.IsOutOfRange :=
  ⟨eq_ok_of_toOption_eq_some (by decide +kernel), .badTapeSize "[]", rfl, trivial⟩

end Emitter

end TapeCompiler
