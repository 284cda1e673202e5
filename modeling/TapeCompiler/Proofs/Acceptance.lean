/-
# What generation accepts

An emitter whose sink takes everything stops short for two reasons only: a number
is too long to be written, or the brackets do not pair up. Label numbers go up by
one with each opening bracket and every one of them is written. So a program that
generation accepts, for whatever size it was asked, had a positive size within the
digit limit, labels within the limit, and balanced brackets.
-/

import TapeCompiler.Proofs.Verdict

namespace TapeCompiler

open Brackets Assembly

variable {codes : List Instruction}

theorem Line.render?_eq_none {line : Line} (h : ¬ line.Writable) : line.render? = none := by
  cases line with
  | tape n | placeCursor n => simp [render?, Number.numeral?, show ¬ Number.Writable n from h]
  | label n | jumpBack n =>
    simp [render?, labelName?, Number.numeral?, show ¬ Number.Writable n from h]
  | _ => exact absurd trivial h

namespace Emitter

variable {emitter next final : Emitter} {line : Line} {lines : List Line}

/-- A sequence succeeds through a state in the middle. -/
theorem exists_of_bind_eq_ok {α β : Type} {action : Action α} {rest : α → Action β} {result : β}
    (h : (action >>= rest) emitter = .ok result final) :
    ∃ first middle, action emitter = .ok first middle ∧ rest first middle = .ok result final := by
  cases haction : action emitter with
  | ok first middle =>
    rw [bind_of_ok haction] at h
    exact ⟨first, middle, rfl, h⟩
  | error error middle =>
    rw [bind_of_error haction] at h
    cases h

/-! ## Lines that cannot be written -/

theorem emit_of_not_writable (h : ¬ line.Writable) :
    emit line emitter = .error .unwritable emitter := by
  rw [emit, Line.render?_eq_none h]
  rfl

/-- Lines that a working sink took were all within the digit limit. -/
theorem writable_of_emitAll_eq_ok (h : emitter.Working)
    (hresult : emitAll lines emitter = .ok () final) : ∀ line ∈ lines, line.Writable := by
  induction lines generalizing emitter with
  | nil => simp
  | cons line rest ih =>
    by_cases hline : line.Writable
    · rw [emitAll, bind_of_ok (emit_of_working h hline)] at hresult
      exact List.forall_mem_cons.2 ⟨hline, ih (h.delivered [line]) hresult⟩
    · rw [emitAll, bind_of_error (emit_of_not_writable hline)] at hresult
      cases hresult

/-! ## Instructions -/

/-- What instructions come to from an emitter whose sink takes everything. If they go through,
labels were taken in order and each of them was written; else a number was too long or a bracket
did not fit. -/
inductive Passed (emitter : Emitter) (codes : List Instruction) :
    EStateM.Result EmitError Emitter Unit → Prop
  | through (next : Emitter) (working : next.Working)
    (counted : next.nextLabel = emitter.nextLabel + codes.count .loopStart)
    (written : ∀ label, emitter.nextLabel ≤ label → label < next.nextLabel →
      Number.Writable label) :
    Passed emitter codes (.ok () next)
  | tooLong (stopped : Emitter) : Passed emitter codes (.error .unwritable stopped)
  | unpaired (error : LoopError) (stopped : Emitter) :
    Passed emitter codes (.error (.loops error) stopped)

/-- One instruction. -/
theorem passed_emitCode (index : Int) (code : Instruction) (h : emitter.Working) :
    Passed emitter [code] (emitCode index code emitter) := by
  by_cases hbracket : IsBracket code
  · rcases hbracket with rfl | rfl
    · by_cases hlabel : Number.Writable emitter.nextLabel
      · rw [emitCode_loopStart index h hlabel]
        refine .through _ ((h.withLoops _ _).delivered _) rfl fun label hge hlt => ?_
        exact hlabel.of_le (Nat.le_of_lt_succ hlt)
      · rw [emitCode, bind_of_ok openLoop_eq, emit_of_not_writable (by exact hlabel)]
        exact .tooLong _
    · cases hopen : emitter.openLoops with
      | nil =>
        rw [emitCode_loopEnd_of_nil index hopen]
        exact .unpaired _ _
      | cons label others =>
        by_cases hlabel : Number.Writable label
        · rw [emitCode_loopEnd_of_cons index h hopen hlabel]
          exact .through _ ((h.withLoops _ _).delivered _) rfl fun _ hge hlt =>
            absurd hlt (Nat.not_lt.2 hge)
        · rw [emitCode, bind_of_ok (closeLoop_of_cons hopen),
            emit_of_not_writable (by exact hlabel)]
          exact .tooLong _
  · have hcount : [code].count .loopStart = 0 :=
      List.count_eq_zero.2 fun hmem => hbracket (Or.inl (List.mem_singleton.1 hmem).symm)
    rw [emitCode_of_not_isBracket index h hbracket]
    exact .through _ (h.delivered _) (by rw [hcount]; rfl) fun _ hge hlt =>
      absurd hlt (Nat.not_lt.2 hge)

/-- Any number of instructions. -/
theorem passed_emitEvents (index : Nat) (codes : List Instruction) (h : emitter.Working) :
    Passed emitter codes (emitEvents index (codes.map .ok) emitter) := by
  induction codes generalizing index emitter with
  | nil => exact .through _ h rfl fun _ hge hlt => absurd hlt (Nat.not_lt.2 hge)
  | cons code rest ih =>
    have hfirst := passed_emitCode index code h
    rw [List.map_cons, emitEvents]
    generalize hresult : emitCode index code emitter = result at hfirst
    cases hfirst with
    | tooLong stopped =>
      rw [bind_of_error hresult]
      exact .tooLong stopped
    | unpaired error stopped =>
      rw [bind_of_error hresult]
      exact .unpaired error stopped
    | through middle hworking hcounted hwritten =>
      rw [bind_of_ok hresult]
      have hrest := ih (index + 1) hworking
      generalize emitEvents (index + 1) (rest.map .ok) middle = last at hrest
      cases hrest with
      | tooLong stopped => exact .tooLong stopped
      | unpaired error stopped => exact .unpaired error stopped
      | through next hworking' hcounted' hwritten' =>
        refine .through next hworking' ?_ fun label hge hlt => ?_
        · rw [hcounted', hcounted, Nat.add_assoc, ← List.count_append, List.singleton_append]
        · -- The label was taken by the first instruction or by one behind it.
          rcases Nat.lt_or_ge label middle.nextLabel with hbefore | hbehind
          · exact hwritten label hge hbefore
          · exact hwritten' label hbehind hlt

/-! ## Sizes -/

/-- Only a positive whole number makes an emitter. -/
theorem exists_of_create_eq_ok {value : Value} (h : create value = .ok emitter) :
    ∃ (size : Int) (hpos : 0 < size.toNat), value = .int size ∧
      emitter = ofSize size.toNat hpos := by
  cases value with
  | int size =>
    by_cases hpos : 0 < size.toNat
    · rw [create_int_of_pos hpos] at h
      exact ⟨size, hpos, rfl, (Except.ok.inj h).symm⟩
    · simp only [create, dif_neg hpos] at h
      split at h <;> cases h
  | _ =>
    simp only [create] at h
    split at h <;> cases h

/-- A run that goes through was within the digit limit throughout. -/
theorem writable_of_run_eq_ok {sink : Sink} (hsink : sink.quota = none)
    (h : run (codes.map .ok) sink emitter = .ok () final) :
    Number.Writable emitter.tapeSize ∧ Number.Writable (codes.count .loopStart) := by
  have hworking : (emitter.restarted sink).Working := working_restarted hsink
  rw [run, bind_of_ok (restart_eq sink)] at h
  obtain ⟨_, started, hprologue, h⟩ := exists_of_bind_eq_ok h
  obtain ⟨_, ended, hevents, -⟩ := exists_of_bind_eq_ok h
  have hlines : ∀ line ∈ prologue emitter.tapeSize, line.Writable :=
    writable_of_emitAll_eq_ok hworking hprologue
  have hsize : Number.Writable emitter.tapeSize :=
    hlines (.tape emitter.tapeSize) (by simp [prologue])
  have hstarted : emitPrologue (emitter.restarted sink) = .ok () (emitter.started sink) :=
    emitPrologue_of_working hworking hsize
  obtain ⟨-, rfl⟩ := EStateM.Result.ok.inj (hprologue.symm.trans hstarted)
  refine ⟨hsize, ?_⟩
  have hready : (emitter.started sink).Working := hworking.delivered _
  have hpassed := passed_emitEvents 0 codes hready
  rw [hevents] at hpassed
  cases hpassed with
  | through _ _ hcounted hwritten =>
    -- Labels count from one, so the last of them is the number of opening brackets.
    have hnext : ended.nextLabel = 1 + codes.count .loopStart := hcounted
    rcases Nat.eq_zero_or_pos (codes.count .loopStart) with hzero | hsome
    · rw [hzero]
      exact hsize.of_le (Nat.zero_le _)
    · refine hwritten _ hsome ?_
      omega

/-- A run whose size is within the limit fails on a number too long to be written or on the
brackets, and on nothing else. -/
theorem eq_unwritable_or_loops_of_run_eq_error {sink : Sink} {error : EmitError}
    (hsink : sink.quota = none) (hsize : Number.Writable emitter.tapeSize)
    (h : run (codes.map .ok) sink emitter = .error error final) :
    error = .unwritable ∨ ∃ unpaired, error = .loops unpaired := by
  have hworking : (emitter.restarted sink).Working := working_restarted hsink
  have hstarted : emitPrologue (emitter.restarted sink) = .ok () (emitter.started sink) :=
    emitPrologue_of_working hworking hsize
  have hready : (emitter.started sink).Working := hworking.delivered _
  have hpassed := passed_emitEvents 0 codes hready
  rw [run, bind_of_ok (restart_eq sink), bind_of_ok hstarted] at h
  generalize hevents : emitEvents 0 (codes.map .ok) (emitter.started sink) = result at hpassed
  cases hpassed with
  | tooLong stopped =>
    rw [bind_of_error hevents] at h
    cases h
    exact .inl rfl
  | unpaired unpaired stopped =>
    rw [bind_of_error hevents] at h
    cases h
    exact .inr ⟨unpaired, rfl⟩
  | through ended _ _ _ =>
    rw [bind_of_ok hevents] at h
    cases hopen : ended.openLoops with
    | nil =>
      rw [checkClosed_of_nil hopen] at h
      cases h
    | cons label others =>
      rw [checkClosed_of_cons hopen] at h
      cases h
      exact .inr ⟨_, rfl⟩

end Emitter

/-! ## Generation -/

/-- A program for which generation gives a text, for some size. -/
def Accepted (codes : List Instruction) : Prop :=
  ∃ size text, generate codes size = .ok text

/-- A text comes only of a positive whole number and of labels within the digit limit. -/
theorem exists_size_of_generate_eq_ok {value : Value} {text : String}
    (h : generate codes value = .ok text) :
    ∃ size : Int, value = .int size ∧ 1 ≤ size ∧ Number.Writable size ∧
      Number.Writable (codes.count .loopStart) := by
  simp only [generate, generateEvents, bind, Except.bind] at h
  cases hcreate : Emitter.create value with
  | error error =>
    rw [hcreate] at h
    cases h
  | ok emitter =>
    obtain ⟨size, hpos, rfl, rfl⟩ := Emitter.exists_of_create_eq_ok hcreate
    rw [hcreate] at h
    dsimp only at h
    split at h
    · next finished hrun =>
      obtain ⟨hsize, hloops⟩ := Emitter.writable_of_run_eq_ok rfl hrun
      refine ⟨size, rfl, by omega, ?_, hloops⟩
      rwa [show size = (size.toNat : Int) by omega]
    · cases h

/-- Brackets that generation accepts pair up. -/
theorem Accepted.balanced (h : Accepted codes) : Balanced codes := by
  obtain ⟨value, text, hgenerate⟩ := h
  obtain ⟨size, rfl, hpos, hsize, hloops⟩ := exists_size_of_generate_eq_ok hgenerate
  exact (generated_generate hpos hsize hloops).exists_eq_ok_iff.1 ⟨text, hgenerate⟩

end TapeCompiler
