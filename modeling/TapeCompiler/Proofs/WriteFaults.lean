/-
# Sinks that fail

The run of an emitter into a sink that fails is the run into a sink that never fails,
cut off at the first write that is refused. The writes before it are the same, the lines
counted are those that went through whole, and the labels are those of the unhindered
run at that write. A sink that takes all the writes makes no difference.

Compiling into such a sink takes the same text. The failure of the sink is reported as
one of the output file, and every other failure is passed on as it is.
-/

import TapeCompiler.Proofs.FileAccess
import TapeCompiler.Proofs.RationedActions

namespace TapeCompiler

open Assembly

namespace Emitter

variable {emitter : Emitter} {k : Nat}

/-! ## Runs -/

/-- The run over a source into a sink that takes everything, up to the instruction at a
position. -/
def beginning (events : List Event) (i : Nat) : Action Unit := do
  restart .empty
  emitPrologue
  emitEvents 0 (events.take i)

/-- The labels of the run over a source into a sink that takes everything, when it makes its write
number `k`: none is open in the prologue, and later they are those just behind the push or pop of
the instruction that makes this write. -/
inductive LabelsAtWrite (emitter : Emitter) (events : List Event) (k : Nat) :
    List Nat → Nat → Prop
  | prologue (within : k < (leftBy (emitPrologue (emitter.restarted .empty))).writes.length) :
    LabelsAtWrite emitter events k [] 1
  | block (i : Nat) (instruction : Instruction) (before labelled : Emitter) (block : List Line)
    (occurs : events[i]? = some (.ok instruction))
    (reached : beginning events i emitter = .ok () before)
    (taken : takeLabel i instruction before = .ok block labelled)
    (begun : before.writes.length ≤ k)
    (within : k < (leftBy (emitCode i instruction before)).writes.length) :
    LabelsAtWrite emitter events k labelled.openLoops labelled.nextLabel

theorem metered_checkClosed (labels : Nat → List Nat → Nat → Prop) :
    Metered checkClosed emitter [] labels := by
  cases hopen : emitter.openLoops with
  | nil => exact .of_ok (checkClosed_of_nil hopen) fun _ => checkClosed_of_nil (by exact hopen)
  | cons label others =>
    exact .of_error (checkClosed_of_cons hopen)
      (fun _ => checkClosed_of_cons (by exact hopen)) nofun

theorem emitPrologue_eq (emitter : Emitter) :
    emitPrologue emitter = emitAll (prologue emitter.tapeSize) emitter :=
  bind_of_ok (rfl : (get : Action Emitter) emitter = .ok emitter emitter)

/-- All that a run does once it has started over. -/
theorem metered_restarted (emitter : Emitter) (events : List Event) :
    ∃ done, Metered (do emitPrologue; emitEvents 0 events; checkClosed) (emitter.restarted .empty)
      done (LabelsAtWrite emitter events) := by
  have hworking : (emitter.restarted .empty).Working := working_restarted rfl
  obtain ⟨done, hall⟩ := metered_emitAll hworking (prologue emitter.tapeSize)
  have hprologue : Metered emitPrologue (emitter.restarted .empty) done
      (emitter.restarted .empty).SameLabels :=
    hall.congr (emitPrologue_eq _) fun _ => emitPrologue_eq _
  have hfresh : (emitter.restarted .empty).writes.length = 0 := rfl
  have hfirst : Metered emitPrologue (emitter.restarted .empty) done
      (LabelsAtWrite emitter events) := by
    refine hprologue.mono fun k openLoops nextLabel hk hat => ?_
    obtain ⟨rfl, rfl⟩ := hat
    refine .prologue ?_
    rw [hprologue.length_writes_leftBy hworking, hfresh, Nat.zero_add]
    exact hk
  cases hresult : emitPrologue (emitter.restarted .empty) with
  | error error stopped => exact ⟨done, hfirst.bind_error hresult⟩
  | ok _ started =>
    have hstarted : started.Working := hprologue.working_of_eq_ok hworking hresult
    have hcount : started.writes.length = 2 * done.length := by
      rw [hprologue.length_writes_of_eq_ok hworking hresult, hfresh, Nat.zero_add]
    obtain ⟨more, hevents⟩ := metered_emitEvents hstarted 0 events
    have hrest : ∃ more, Metered (do emitEvents 0 events; checkClosed) started more
        fun k => BlockLabels 0 events started (started.writes.length + k) := by
      cases hend : emitEvents 0 events started with
      | error error stopped => exact ⟨more, hevents.bind_error hend⟩
      | ok _ ended =>
        exact ⟨more ++ [], hevents.bind hend (metered_checkClosed fun _ _ _ => False)
          fun _ _ _ hnone => hnone.elim⟩
    obtain ⟨more, hrest⟩ := hrest
    refine ⟨done ++ more, hfirst.bind hresult hrest fun k openLoops nextLabel hat => ?_⟩
    rw [hcount] at hat
    cases hat with
    | intro i instruction before labelled block occurs reached taken begun within =>
      rw [Nat.zero_add] at taken within
      refine .block i instruction before labelled block occurs ?_ taken begun within
      rw [beginning, bind_of_ok (restart_eq _), bind_of_ok hresult]
      exact reached

/-- The writes of the run over a source into a sink that takes everything. -/
def freeWrites (emitter : Emitter) (events : List Event) : List String :=
  (leftBy (run events .empty emitter)).writes

/-- What a run leaves whose sink refuses the write number `k`. -/
structure CutOff (emitter : Emitter) (events : List Event) (k : Nat) (fault : IoFault)
    (stopped : Emitter) : Prop where
  sink : stopped.sink = some ⟨((freeWrites emitter events).take k).reverse, some ⟨0, fault⟩⟩
  text : stopped.text? = some (String.join ((freeWrites emitter events).take k))
  lines : stopped.lines = k / 2
  newlines : (String.join ((freeWrites emitter events).take k)).toList.count '\n' = stopped.lines
  labels : LabelsAtWrite emitter events k stopped.openLoops stopped.nextLabel

theorem run_eq_restarted (events : List Event) (sink : Sink) (emitter : Emitter) :
    run events sink emitter =
      (do emitPrologue; emitEvents 0 events; checkClosed : Action Unit) (emitter.restarted sink) :=
  bind_of_ok (restart_eq sink)

/-- A run depends on no more of the emitter than the size of its tape. -/
theorem run_eq_run_ofSize (events : List Event) (sink : Sink) (emitter : Emitter) :
    run events sink emitter = run events sink (.ofSize emitter.tapeSize emitter.tapeSize_pos) := by
  rw [run_eq_restarted, run_eq_restarted]
  rfl

theorem restarted_limited (emitter : Emitter) (k : Nat) (fault : IoFault) :
    emitter.restarted (.limited k fault) = (emitter.restarted .empty).rationed ⟨k, fault⟩ := rfl

theorem exists_metered_run (emitter : Emitter) (events : List Event) :
    ∃ lines, freeWrites emitter events = writesOf lines ∧
      Metered (do emitPrologue; emitEvents 0 events; checkClosed) (emitter.restarted .empty) lines
        (LabelsAtWrite emitter events) := by
  obtain ⟨lines, hmetered⟩ := metered_restarted emitter events
  refine ⟨lines, ?_, hmetered⟩
  rw [freeWrites, run_eq_restarted, hmetered.writes_leftBy (working_restarted rfl),
    show (emitter.restarted .empty).writes = [] from rfl, List.nil_append]

/-- A sink that takes everything holds the writes of the run when it ends, and nothing else. -/
theorem sink_leftBy_run (emitter : Emitter) (events : List Event) :
    (leftBy (run events .empty emitter)).sink =
      some ⟨(freeWrites emitter events).reverse, none⟩ := by
  obtain ⟨lines, hwrites, hmetered⟩ := exists_metered_run emitter events
  obtain ⟨openLoops, nextLabel, hleft⟩ := hmetered.ends
  rw [run_eq_restarted, hleft, hwrites]
  simp [delivered, withLoops, restarted, Sink.empty]

theorem text?_leftBy_run (emitter : Emitter) (events : List Event) :
    (leftBy (run events .empty emitter)).text? =
      some (String.join (freeWrites emitter events)) := by
  rw [text?, sink_leftBy_run, Option.map_some, Sink.text, List.reverse_reverse]

/-- A sink that takes everything is no reason to fail. -/
theorem run_empty_ne_sink (emitter : Emitter) (events : List Event) (fault : IoFault)
    (stopped : Emitter) : run events .empty emitter ≠ .error (.sink fault) stopped := by
  obtain ⟨lines, -, hmetered⟩ := exists_metered_run emitter events
  rw [run_eq_restarted]
  exact hmetered.unrefused fault stopped

/-- A sink that takes all the writes of a run does not show in its result. -/
theorem run_limited_of_le {events : List Event} (fault : IoFault)
    (h : (freeWrites emitter events).length ≤ k) :
    run events (.limited k fault) emitter =
      rationedResult ⟨k - (freeWrites emitter events).length, fault⟩
        (run events .empty emitter) := by
  obtain ⟨lines, hwrites, hmetered⟩ := exists_metered_run emitter events
  rw [hwrites, length_writesOf] at h ⊢
  rw [run_eq_restarted, run_eq_restarted, restarted_limited]
  exact hmetered.enough k fault h

/-- A sink that refuses one of the writes of a run ends it there. -/
theorem exists_run_limited_of_lt {events : List Event} (fault : IoFault)
    (h : k < (freeWrites emitter events).length) :
    ∃ stopped, run events (.limited k fault) emitter = .error (.sink fault) stopped ∧
      CutOff emitter events k fault stopped := by
  obtain ⟨lines, hwrites, hmetered⟩ := exists_metered_run emitter events
  rw [hwrites, length_writesOf] at h
  obtain ⟨openLoops, nextLabel, hlabels, hresult⟩ := hmetered.short k fault h
  refine ⟨_, by rw [run_eq_restarted, restarted_limited]; exact hresult, ?_, ?_, ?_, ?_, hlabels⟩
  · rw [hwrites]
    simp [rationed, interrupted, withLoops, restarted, Sink.empty]
  · rw [hwrites]
    simp [text?, Sink.text, rationed, interrupted, withLoops, restarted, Sink.empty]
  · exact Nat.zero_add _
  · rw [hwrites, count_newline_join_take_writesOf lines k (Nat.le_of_lt h)]
    exact (Nat.zero_add _).symm

/-- The writes of a run are lines without a line feed, each followed by one. -/
theorem exists_freeWrites_eq_flatMap (emitter : Emitter) (events : List Event) :
    ∃ lines : List String, (∀ line ∈ lines, '\n' ∉ line.toList) ∧
      freeWrites emitter events = lines.flatMap fun line => [line, "\n"] := by
  obtain ⟨lines, hwrites, -⟩ := exists_metered_run emitter events
  refine ⟨lines.map Line.text, ?_, ?_⟩
  · intro text htext
    obtain ⟨line, -, rfl⟩ := List.mem_map.1 htext
    exact line.newline_notMem_text
  · rw [hwrites, writesOf, List.flatMap_map]

/-! ## Compiling into a sink that fails -/

theorem compileEvents_eq (emitter : Emitter) (sink : Sink) (path : Path) (events : List Event) :
    compileEvents (.ok sink) path events (.int emitter.tapeSize) =
      match run events sink emitter with
      | .ok _ finished => ⟨.ok finished, finished.text?⟩
      | .error error stopped => ⟨.error (.ofEmitError path error), stopped.text?⟩ := by
  rw [run_eq_run_ofSize]
  cases hrun : run events sink (.ofSize emitter.tapeSize emitter.tapeSize_pos) <;>
    simp only [compileEvents, create_natCast emitter.tapeSize_pos, hrun]

theorem text?_rationed (emitter : Emitter) (quota : Quota) :
    (emitter.rationed quota).text? = emitter.text? := by
  rw [text?, text?, rationed, Option.map_map]
  rfl

end Emitter

theorem CompileError.ofEmitError_of_ne_sink {path : Path} {error : EmitError}
    (h : ∀ fault, error ≠ .sink fault) : ofEmitError path error = .emit error := by
  cases error with
  | sink fault => exact absurd rfl (h fault)
  | _ => rfl

namespace IoFault

variable {fault : IoFault}

/-- The reason is the text that comes with a number, if there is such a text. -/
theorem reason_of_number {n : Int} (hnumber : fault.number = some n) (htext : fault.text ≠ "") :
    fault.reason = fault.text := by
  have hempty : ¬ fault.text.isEmpty = true := by simpa using htext
  simp only [reason, hnumber, if_neg hempty]

theorem reason_of_none_or_empty (h : fault.number = none ∨ fault.text = "") :
    fault.reason = fault.shown := by
  cases hnumber : fault.number with
  | none => simp only [reason, hnumber]
  | some n =>
    have hempty : fault.text.isEmpty = true := by simpa [hnumber] using h
    simp only [reason, hnumber, if_pos hempty]

end IoFault

namespace Emitter

/-- **The prefix law of refused writes.** The unhindered run writes lines and line feeds in turn.
With a sink that takes as many writes as it makes, or more, everything is as without a limit. With
a sink that takes fewer, the failure is that of the sink, the sink holds the writes before the
refused one, the lines counted are those whose line feed was taken, and the labels are those of
the unhindered run behind the push or pop of the instruction whose write was refused. Compiling
into such a sink takes the same text; it reports the failure of the sink, and no other, as one of
the output at its path, worded by the text of the failure. -/
theorem run_limited_prefix_law (emitter : Emitter) (events : List Event) (path : Path) (k : Nat)
    (fault : IoFault) :
    (∃ lines : List String, (∀ line ∈ lines, '\n' ∉ line.toList) ∧
      freeWrites emitter events = lines.flatMap fun line => [line, "\n"]) ∧
    ((freeWrites emitter events).length ≤ k →
      run events (.limited k fault) emitter =
        rationedResult ⟨k - (freeWrites emitter events).length, fault⟩
          (run events .empty emitter) ∧
      compileEvents (.ok (.limited k fault)) path events (.int emitter.tapeSize) =
        match run events .empty emitter with
        | .ok _ finished =>
          ⟨.ok (finished.rationed ⟨k - (freeWrites emitter events).length, fault⟩),
            some (String.join (freeWrites emitter events))⟩
        | .error error _ =>
          ⟨.error (.emit error), some (String.join (freeWrites emitter events))⟩) ∧
    (k < (freeWrites emitter events).length →
      (∃ stopped, run events (.limited k fault) emitter = .error (.sink fault) stopped ∧
        CutOff emitter events k fault stopped) ∧
      compileEvents (.ok (.limited k fault)) path events (.int emitter.tapeSize) =
        ⟨.error (.output path fault),
          some (String.join ((freeWrites emitter events).take k))⟩) ∧
    (∀ n, fault.number = some n → fault.text ≠ "" →
      (CompileError.output path fault).message = fault.text) ∧
    (fault.number = none ∨ fault.text = "" →
      (CompileError.output path fault).message = fault.shown) := by
  refine ⟨exists_freeWrites_eq_flatMap emitter events, fun henough => ?_, fun hshort => ?_,
    fun n hnumber htext => IoFault.reason_of_number hnumber htext,
    fun hnone => IoFault.reason_of_none_or_empty hnone⟩
  · have hrun := run_limited_of_le fault henough
    have htext := text?_leftBy_run emitter events
    refine ⟨hrun, ?_⟩
    rw [compileEvents_eq, hrun]
    cases hfree : run events .empty emitter with
    | ok _ finished =>
      rw [hfree] at htext
      simp only [rationedResult, text?_rationed, show finished.text? = _ from htext]
    | error error stopped =>
      rw [hfree] at htext
      have herror : ∀ fault, error ≠ .sink fault := by
        rintro fault rfl
        exact run_empty_ne_sink emitter events fault stopped hfree
      simp only [rationedResult, text?_rationed, show stopped.text? = _ from htext,
        CompileError.ofEmitError_of_ne_sink herror]
  · obtain ⟨stopped, hrun, hcut⟩ := exists_run_limited_of_lt fault hshort
    refine ⟨⟨stopped, hrun, hcut⟩, ?_⟩
    rw [compileEvents_eq, hrun]
    simp only [hcut.text, CompileError.ofEmitError]

/-- The sink refuses the line feed behind a label, before the source fails. -/
theorem run_limited_prefix_law_behind_label :
    15 < (freeWrites (.ofSize 8 (by decide)) (Source.items [.text "[", .list []]).events).length ∧
      (∃ stopped, run (Source.items [.text "[", .list []]).events
          (.limited 15 ⟨some 28, "No space left on device"⟩) (.ofSize 8 (by decide)) =
            .error (.sink ⟨some 28, "No space left on device"⟩) stopped ∧
        CutOff (.ofSize 8 (by decide)) (Source.items [.text "[", .list []]).events 15
          ⟨some 28, "No space left on device"⟩ stopped) ∧
      compileEvents (.ok (.limited 15 ⟨some 28, "No space left on device"⟩)) (Path.ofText "p.asm")
        (Source.items [.text "[", .list []]).events (.int 8) =
          ⟨.error (.output (Path.ofText "p.asm") ⟨some 28, "No space left on device"⟩),
            some (String.join ((freeWrites (.ofSize 8 (by decide))
              (Source.items [.text "[", .list []]).events).take 15))⟩ := by
  have hshort : 15 < (freeWrites (.ofSize 8 (by decide))
      (Source.items [.text "[", .list []]).events).length := by decide +kernel
  exact ⟨hshort, (run_limited_prefix_law (.ofSize 8 (by decide)) _ _ 15 _).2.2.1 hshort⟩

end Emitter

end TapeCompiler
