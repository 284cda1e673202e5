/-
# What an emitter forgets

An emitter can be driven step by step, and a step that fails may leave loops open, a
label spent or a sink that takes no more. None of this reaches a later program. No
operation changes the size of the tape, and a run over a program sets everything else
anew before it looks at it. So a run on an emitter with any history is the run on a new
emitter for the same tape, and generation is such a run too.
-/

import TapeCompiler.Emitter.Operation
import TapeCompiler.Proofs.WriteFaults

namespace TapeCompiler.Emitter

open Assembly

variable {α β γ : Type} {emitter : Emitter} {view : Emitter → γ}

/-! ## What actions keep -/

/-- An action keeps a view of the emitter if the view is the same behind it, whether the action
goes through or fails. -/
def Keeps (view : Emitter → γ) (action : Action α) : Prop :=
  ∀ emitter, view (leftBy (action emitter)) = view emitter

namespace Keeps

theorem pure (value : α) : Keeps view (pure value : Action α) := fun _ => rfl

theorem throw (error : EmitError) : Keeps view (throw error : Action α) := fun _ => rfl

theorem modify {change : Emitter → Emitter} (h : ∀ emitter, view (change emitter) = view emitter) :
    Keeps view (modify change : Action Unit) := h

theorem bind {action : Action α} {rest : α → Action β} (h : Keeps view action)
    (hrest : ∀ value, Keeps view (rest value)) : Keeps view (action >>= rest) := by
  intro emitter
  have hfirst := h emitter
  cases hresult : action emitter with
  | ok value middle =>
    rw [hresult] at hfirst
    rw [bind_of_ok hresult, hrest value middle]
    exact hfirst
  | error error stopped =>
    rw [hresult] at hfirst
    rw [bind_of_error hresult]
    exact hfirst

/-- An action that looks at the emitter first. -/
theorem bind_get {rest : Emitter → Action β} (hrest : ∀ found, Keeps view (rest found)) :
    Keeps view (get >>= rest) :=
  bind (fun _ => rfl) hrest

end Keeps

/-- A view that shows neither the sink nor the number of lines it took. -/
structure IgnoresOutput (view : Emitter → γ) : Prop where
  sink : ∀ emitter sink, view { emitter with sink := sink } = view emitter
  lines : ∀ emitter lines, view { emitter with lines := lines } = view emitter

namespace IgnoresOutput

variable (h : IgnoresOutput view)
include h

theorem keeps_put (piece : String) : Keeps view (put piece) := by
  intro emitter
  unfold put
  split
  · rfl
  · split
    · rfl
    · exact h.sink emitter _

theorem keeps_emitText (line : String) : Keeps view (emitText line) :=
  (h.keeps_put line).bind fun _ => (h.keeps_put "\n").bind fun _ =>
    .modify fun emitter => h.lines emitter _

theorem keeps_emit (line : Line) : Keeps view (emit line) := by
  unfold emit
  split
  · exact h.keeps_emitText _
  · exact .throw _

theorem keeps_emitAll (lines : List Line) : Keeps view (emitAll lines) := by
  induction lines with
  | nil => exact .pure ()
  | cons line rest ih => exact (h.keeps_emit line).bind fun _ => ih

theorem keeps_emitPrologue : Keeps view emitPrologue :=
  .bind_get fun found => h.keeps_emitAll (prologue found.tapeSize)

theorem keeps_attach (sink : Option Sink) : Keeps view (attach sink) :=
  .modify fun emitter => h.sink emitter sink

end IgnoresOutput

/-- The check for open loops changes nothing at all. -/
theorem keeps_checkClosed (view : Emitter → γ) : Keeps view checkClosed := by
  refine .bind_get fun found => ?_
  dsimp only
  split
  · exact .throw _
  · exact .pure ()

/-! ## The size of the tape -/

theorem ignoresOutput_tapeSize : IgnoresOutput tapeSize := ⟨fun _ _ => rfl, fun _ _ => rfl⟩

theorem keeps_tapeSize_closeLoop (index : Int) : Keeps tapeSize (closeLoop index) := by
  intro emitter
  cases hopen : emitter.openLoops with
  | nil =>
    rw [closeLoop_of_nil hopen]
    rfl
  | cons label others =>
    rw [closeLoop_of_cons hopen]
    rfl

theorem keeps_tapeSize_openLoop : Keeps tapeSize openLoop := fun _ => rfl

theorem keeps_tapeSize_emitCode (index : Int) (code : Instruction) :
    Keeps tapeSize (emitCode index code) := by
  cases code with
  | loopStart => exact keeps_tapeSize_openLoop.bind fun _ => ignoresOutput_tapeSize.keeps_emit _
  | loopEnd =>
    exact (keeps_tapeSize_closeLoop index).bind fun _ => ignoresOutput_tapeSize.keeps_emit _
  | _ => exact ignoresOutput_tapeSize.keeps_emitAll _

theorem keeps_tapeSize_emitEvents (index : Nat) (events : List Event) :
    Keeps tapeSize (emitEvents index events) := by
  induction events generalizing index with
  | nil => exact .pure ()
  | cons event rest ih =>
    cases event with
    | error fault => exact .throw _
    | ok code => exact (keeps_tapeSize_emitCode index code).bind fun _ => ih (index + 1)

theorem keeps_tapeSize_run (events : List Event) (sink : Sink) : Keeps tapeSize (run events sink) :=
  .bind (.modify fun _ => rfl) fun _ => ignoresOutput_tapeSize.keeps_emitPrologue.bind fun _ =>
    (keeps_tapeSize_emitEvents 0 events).bind fun _ => keeps_checkClosed tapeSize

/-- No operation changes the size of the tape. -/
theorem keeps_tapeSize_perform (operation : Operation) : Keeps tapeSize operation.perform := by
  cases operation with
  | run events sink => exact (keeps_tapeSize_run events sink).bind fun _ => .pure _
  | attach sink => exact (ignoresOutput_tapeSize.keeps_attach sink).bind fun _ => .pure _
  | emitText line => exact (ignoresOutput_tapeSize.keeps_emitText line).bind fun _ => .pure _
  | openLoop => exact keeps_tapeSize_openLoop.bind fun _ => .pure _
  | closeLoop index => exact (keeps_tapeSize_closeLoop index).bind fun _ => .pure _
  | prologue => exact ignoresOutput_tapeSize.keeps_emitPrologue.bind fun _ => .pure _
  | code index code => exact (keeps_tapeSize_emitCode index code).bind fun _ => .pure _

theorem after_eq_leftBy (emitter : Emitter) (operation : Operation) :
    emitter.after operation = leftBy (operation.perform emitter) := by
  unfold after
  cases operation.perform emitter <;> rfl

theorem tapeSize_afterAll (emitter : Emitter) (operations : List Operation) :
    (emitter.afterAll operations).tapeSize = emitter.tapeSize := by
  induction operations generalizing emitter with
  | nil => rfl
  | cons operation rest ih =>
    have hstep : (emitter.after operation).tapeSize = emitter.tapeSize := by
      rw [after_eq_leftBy]
      exact keeps_tapeSize_perform operation emitter
    exact (ih (emitter.after operation)).trans hstep

/-! ## Runs -/

/-- Emitters for the same tape give the same run, whatever else is in them. -/
theorem run_congr {other : Emitter} (h : other.tapeSize = emitter.tapeSize) (events : List Event)
    (sink : Sink) : run events sink other = run events sink emitter := by
  -- Each of them is the run of the new emitter for its tape, since starting over sets the rest.
  rw [run_eq_run_ofSize events sink other, run_eq_run_ofSize events sink emitter]
  simp only [h]

/-- A text is generated exactly if the run of a new emitter goes through and leaves it in its
sink. -/
theorem generateEvents_eq_ok_iff {value : Value} {events : List Event} {text : String}
    (h : create value = .ok emitter) :
    generateEvents events value = .ok text ↔
      ∃ finished, run events .empty emitter = .ok () finished ∧ finished.text? = some text := by
  obtain ⟨size, hpos, rfl, rfl⟩ := exists_of_create_eq_ok h
  have htext := text?_leftBy_run (.ofSize size.toNat hpos) events
  rw [generateEvents_eq events hpos]
  cases hrun : run events .empty (.ofSize size.toNat hpos) with
  | ok _ finished =>
    rw [hrun] at htext
    have hfinished : finished.text? = _ := htext
    simp [hfinished]
  | error error stopped => simp

/-- A failure is reported exactly if the run of a new emitter ends in it. -/
theorem generateEvents_eq_error_iff {value : Value} {events : List Event} {error : EmitError}
    (h : create value = .ok emitter) :
    generateEvents events value = .error error ↔
      ∃ stopped, run events .empty emitter = .error error stopped := by
  obtain ⟨size, hpos, rfl, rfl⟩ := exists_of_create_eq_ok h
  rw [generateEvents_eq events hpos]
  cases run events .empty (.ofSize size.toNat hpos) <;> simp

/-- **Runs do not depend on history.** Whatever operations a new emitter went through, and however
each of them ended, a run over any source into any new sink ends as it does on the new emitter: in
the same success or failure, with the same text in the sink, the same count of lines, the same next
label and the same open loops. Run into a sink that takes everything, it gives the text that
generation gives for the same source, or fails as generation does. -/
theorem run_forgets_history {value : Value} (hcreate : create value = .ok emitter)
    (operations : List Operation) :
    (∀ events sink,
      run events sink (emitter.afterAll operations) = run events sink emitter) ∧
    ∀ events,
      (∀ text, generateEvents events value = .ok text ↔
        ∃ finished, run events .empty (emitter.afterAll operations) = .ok () finished ∧
          finished.text? = some text) ∧
      ∀ error, generateEvents events value = .error error ↔
        ∃ stopped, run events .empty (emitter.afterAll operations) = .error error stopped := by
  have hsame : ∀ events sink,
      run events sink (emitter.afterAll operations) = run events sink emitter :=
    fun events sink => run_congr (tapeSize_afterAll emitter operations) events sink
  refine ⟨hsame, fun events => ⟨fun text => ?_, fun error => ?_⟩⟩
  · rw [hsame]
    exact generateEvents_eq_ok_iff hcreate
  · rw [hsame]
    exact generateEvents_eq_error_iff hcreate

/-- A loop opened without a sink, then a run that its sink cuts off behind a label, and then a
closing bracket: none of it shows in the next run. -/
theorem run_forgets_history_of_failures :
    create (.int 8) = .ok (.ofSize 8 (by decide)) ∧
      run (Source.text "[-]").events .empty
        ((ofSize 8 (by decide)).afterAll
          [.code 0 .loopStart,
            .run (Source.text "[[+").events (.limited 15 ⟨some 28, "No space left on device"⟩),
            .closeLoop 3]) =
        run (Source.text "[-]").events .empty (.ofSize 8 (by decide)) := by
  have hcreate : create (.int 8) = .ok (.ofSize 8 (by decide)) := rfl
  exact ⟨hcreate, (run_forgets_history hcreate _).1 _ _⟩

end TapeCompiler.Emitter
