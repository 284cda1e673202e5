/-
# Output in a file and output in memory

Compiling into a file and generating a text share the emitter and differ in what
stands around it. The size is checked before the file is opened, so a size that is
refused leaves the file system alone, as does a file that cannot be opened. Once the
file is open it takes what the emitter leaves in memory, all of it or the part before
a fault, and the two come to the same end.
-/

import TapeCompiler.Proofs.WriteFaults

namespace TapeCompiler

open Assembly

namespace Emitter

variable {emitter : Emitter} {size : Int}

/-- A number that is not positive is refused, and shown in the refusal if it can be written. -/
theorem create_of_not_pos (h : size ≤ 0) :
    create (.int size) = .error
      (match Number.numeral? size with
      | some shown => .badTapeSize shown
      | none => .unwritable) := by
  have hpos : ¬ 0 < size.toNat := by omega
  simp only [create, dif_neg hpos, Value.shown?]
  cases Number.numeral? size <;> rfl

/-- A size that cannot be written stops every run at the third line. -/
theorem run_of_not_writable (events : List Event) {sink : Sink} (hsink : sink.quota = none)
    (h : ¬ Number.Writable emitter.tapeSize) :
    run events sink emitter = .error .unwritable
      ((emitter.restarted sink).delivered [.dataSection, .cursorSlot]) := by
  have hworking : (emitter.restarted sink).Working := working_restarted hsink
  have hlines : ∀ line ∈ [Line.dataSection, .cursorSlot], line.Writable := by
    rintro line (_ | ⟨_, _ | ⟨_, ⟨⟩⟩⟩) <;> trivial
  have hsplit : prologue emitter.tapeSize = [.dataSection, .cursorSlot] ++
      .tape emitter.tapeSize :: [.codeSection, .exportEntry, .entry,
        .placeCursor (emitter.tapeSize / 2)] := rfl
  have hprologue : emitPrologue (emitter.restarted sink) = .error .unwritable
      ((emitter.restarted sink).delivered [.dataSection, .cursorSlot]) := by
    rw [emitPrologue_eq, show (emitter.restarted sink).tapeSize = emitter.tapeSize from rfl,
      hsplit, emitAll_append, bind_of_ok (emitAll_of_working hworking hlines), emitAll]
    exact bind_of_error (emit_of_not_writable (by exact h))
  rw [run_eq_restarted, bind_of_error hprologue]

end Emitter

open Emitter

variable {store : Store} {path : Path} {location : Location} {codes : List Instruction} {size : Int}

/-- A size that is refused leaves the file system alone, whatever the output is. -/
theorem compile_of_create_eq_error {value : Value} {error : EmitError}
    (h : create value = .error error) :
    compile store path codes value = (store, .error (.emit error)) := by
  cases hopen : store.openForWriting path <;>
    simp [compile, compileInto, compileEvents, h, hopen]

theorem generate_of_create_eq_error {value : Value} {error : EmitError}
    (h : create value = .error error) : generate codes value = .error error := by
  rw [generate, generateEvents, h]
  rfl

/-- How a run into memory ends, without the text. -/
def outcomeOf : EStateM.Result EmitError Emitter Unit → Except EmitError Unit
  | .ok _ _ => .ok ()
  | .error error _ => .error error

theorem map_generate {size : Nat} (hpos : 0 < size) :
    (generate codes (.int size)).map (fun _ => ()) =
      outcomeOf (run (codes.map .ok) .empty (.ofSize size hpos)) := by
  rw [generate_natCast hpos]
  cases run (codes.map .ok) .empty (.ofSize size hpos) <;> rfl

/-- A text that is generated is the one that the run leaves in memory. -/
theorem text?_leftBy_run_of_generate_eq_ok {size : Nat} {text : String} (hpos : 0 < size)
    (h : generate codes (.int size) = .ok text) :
    (leftBy (run (codes.map .ok) .empty (.ofSize size hpos))).text? = some text := by
  have htext := text?_leftBy_run (.ofSize size hpos) (codes.map .ok)
  rw [generate_natCast hpos] at h
  cases hrun : run (codes.map .ok) .empty (.ofSize size hpos) with
  | error error stopped =>
    rw [hrun] at h
    cases h
  | ok _ finished =>
    rw [hrun] at h htext
    have hfinished : finished.text? = _ := htext
    simp only [hfinished, Option.getD_some, Except.ok.injEq] at h
    rw [← h]
    exact hfinished

/-- An output that opens takes the text of the run into memory, and compiling ends as the run
does. -/
theorem compile_eq_of_openForWriting_eq_ok {size : Nat} {text : String} (hpos : 0 < size)
    (hopen : store.openForWriting path = .ok location)
    (htext : (leftBy (run (codes.map .ok) .empty (.ofSize size hpos))).text? = some text) :
    (compile store path codes (.int size)).1 =
        store.set location (.file (Text.encodeUtf8 text)) ∧
      (compile store path codes (.int size)).2.map (fun _ => ()) =
        (outcomeOf (run (codes.map .ok) .empty (.ofSize size hpos))).mapError .emit := by
  have hcompile := @compile_of_openForWriting_eq_ok store path location codes size hpos hopen
  cases hrun : run (codes.map .ok) .empty (.ofSize size hpos) with
  | ok _ finished =>
    rw [hrun] at htext hcompile
    have hfinished : finished.text? = some text := htext
    dsimp only at hcompile
    rw [hcompile, hfinished]
    exact ⟨rfl, rfl⟩
  | error error stopped =>
    rw [hrun] at htext hcompile
    have hstopped : stopped.text? = some text := htext
    have herror : ∀ fault, error ≠ .sink fault := by
      rintro fault rfl
      exact run_empty_ne_sink _ _ fault stopped hrun
    dsimp only at hcompile
    rw [hcompile, hstopped, CompileError.ofEmitError_of_ne_sink herror]
    exact ⟨rfl, rfl⟩

/-- **Files agree with memory.** For a path without a NUL character: a size that is not positive
is refused as generation refuses it, and the file system stays as it is. Otherwise there is an
emitter for the size. A file that does not open is reported with its path and why, and the file
system stays as it is. A file that opens holds afterwards exactly the bytes of the text that the
emitter leaves in memory, nothing else changes, and compiling ends as generation does; in
particular a size that cannot be written stops both in the same way. -/
theorem compile_agrees_with_generate (hpath : path.hasNul = false) (store : Store)
    (codes : List Instruction) (size : Int) :
    (size ≤ 0 → ∃ error, (error = .unwritable ∨ ∃ shown, error = .badTapeSize shown) ∧
      generate codes (.int size) = .error error ∧
      compile store path codes (.int size) = (store, .error (.emit error))) ∧
    (1 ≤ size → ∃ emitter, create (.int size) = .ok emitter ∧
      (∀ refusal, store.openForWriting path = .error refusal →
        ∃ fault, refusal = .fault fault ∧
          compile store path codes (.int size) = (store, .error (.output path fault))) ∧
      ∀ location, store.openForWriting path = .ok location →
        ∃ text, (leftBy (run (codes.map .ok) .empty emitter)).text? = some text ∧
          store.Rewritten path (Text.encodeUtf8 text) (compile store path codes (.int size)).1 ∧
          (compile store path codes (.int size)).2.map (fun _ => ()) =
            ((generate codes (.int size)).map fun _ => ()).mapError .emit ∧
          (∀ generated, generate codes (.int size) = .ok generated → generated = text) ∧
          (¬ Number.Writable size → generate codes (.int size) = .error .unwritable)) := by
  refine ⟨fun hsize => ?_, fun hsize => ?_⟩
  · have hcreate := create_of_not_pos hsize
    refine ⟨_, ?_, generate_of_create_eq_error hcreate, compile_of_create_eq_error hcreate⟩
    cases Number.numeral? size with
    | none => exact .inl rfl
    | some shown => exact .inr ⟨shown, rfl⟩
  · obtain ⟨size, rfl⟩ := Int.eq_ofNat_of_zero_le (by omega : 0 ≤ size)
    have hpos : 0 < size := by omega
    refine ⟨.ofSize size hpos, create_natCast hpos, fun refusal hrefused => ?_,
      fun location hopen => ?_⟩
    · obtain ⟨fault, rfl⟩ := Store.exists_fault_of_openForWriting_eq_error hpath hrefused
      exact ⟨fault, rfl, compile_of_openForWriting_eq_error hpos hrefused⟩
    · have htext := text?_leftBy_run (.ofSize size hpos) (codes.map .ok)
      obtain ⟨hstore, houtcome⟩ := compile_eq_of_openForWriting_eq_ok hpos hopen htext
      refine ⟨_, htext, ?_, ?_, fun generated hgenerated => ?_, fun hlong => ?_⟩
      · rw [hstore]
        exact Store.rewritten_set hopen _
      · rw [houtcome, map_generate hpos]
      · have hsame := text?_leftBy_run_of_generate_eq_ok hpos hgenerated
        exact Option.some.inj (hsame.symm.trans htext)
      · rw [generate_natCast hpos, run_of_not_writable _ rfl (by exact hlong)]

/-- A file that is there already is written over, with a program whose brackets do not pair up. -/
theorem compile_agrees_with_generate_over_old_content :
    (Path.ofText "p.asm").hasNul = false ∧
      Store.openForWriting ⟨[(["p.asm"], .file [1, 2, 3])], []⟩ (Path.ofText "p.asm") =
        .ok ["p.asm"] ∧
      ∃ emitter text, create (.int 8) = .ok emitter ∧
        (leftBy (run ((Instruction.ofText "+]").map .ok) .empty emitter)).text? = some text ∧
        Store.Rewritten ⟨[(["p.asm"], .file [1, 2, 3])], []⟩ (Path.ofText "p.asm")
          (Text.encodeUtf8 text) (compile ⟨[(["p.asm"], .file [1, 2, 3])], []⟩
            (Path.ofText "p.asm") (Instruction.ofText "+]") (.int 8)).1 := by
  have hpath : (Path.ofText "p.asm").hasNul = false := by decide +kernel
  have hopen : Store.openForWriting ⟨[(["p.asm"], .file [1, 2, 3])], []⟩ (Path.ofText "p.asm") =
      .ok ["p.asm"] := eq_ok_of_toOption_eq_some (by decide +kernel)
  obtain ⟨emitter, hcreate, -, hopened⟩ := (compile_agrees_with_generate hpath
    ⟨[(["p.asm"], .file [1, 2, 3])], []⟩ (Instruction.ofText "+]") 8).2 (by decide)
  obtain ⟨text, htext, hrewritten, -⟩ := hopened _ hopen
  exact ⟨hpath, hopen, emitter, text, hcreate, htext, hrewritten⟩

end TapeCompiler
