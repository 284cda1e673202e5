/-
# Failures that nothing handles

Some calls stand outside every handler, so a run may end without an exit code. A
source file without a name, such as a single dot or slash, has nothing to derive
the output file from. An option may hold no value, since the separator behind an
equals sign is accepted in its place. And a program may have more loops than labels
can number. These are all the cases: every other run comes to an exit code.
-/

import TapeCompiler.Proofs.RunCourse

namespace TapeCompiler.CommandLine

variable {logName : String} {settings : Settings} {store : Store} {output : Path} {size : Nat}

/-- The settings and file systems in which a failure goes unhandled: the source file has no name
to derive the output from, an option was given the separator in place of a value, or labels run
out of digits. -/
inductive Settings.Unhandled (settings : Settings) (store : Store) : Prop
  | nameless (unset : settings.output = none) (nameless : settings.file.name = "")
  | noOutput (bytes : List UInt8) (read : store.contents settings.file = .ok bytes)
    (missing : settings.output = some .nothing)
  | noSize (bytes : List UInt8) (read : store.contents settings.file = .ok bytes)
    (missing : settings.tapeSize = .nothing)
  | tooManyLoops (bytes : List UInt8) (output : Path) (location : Location)
    (read : store.contents settings.file = .ok bytes)
    (isOutput : settings.outputPath = .ok (.value output))
    (opened : store.openForWriting output = .ok location)
    (unwritable : generate (Instruction.ofBytes bytes) settings.tapeValue = .error .unwritable)

theorem exists_escaped_of_outputPath_eq_error {error : Path.ExtensionError}
    (h : settings.outputPath = .error error) :
    ∃ failure, (runSettings logName settings store).ending = .escaped failure := by
  simp only [runSettings, h]
  exact ⟨_, rfl⟩

theorem exists_escaped_runCompile_nothing (program : Program) :
    ∃ failure, (runCompile logName settings store program .nothing).ending = .escaped failure := by
  simp only [runCompile]
  cases Emitter.create settings.tapeValue with
  | error error => exact ⟨_, rfl⟩
  | ok emitter => exact ⟨_, rfl⟩

/-- Without a size there is no emitter, and the refusal passes through every handler. -/
theorem exists_escaped_runCompile_of_tapeSize_eq_nothing (program : Program) (given : Given Path)
    (h : settings.tapeSize = .nothing) :
    ∃ failure, (runCompile logName settings store program given).ending = .escaped failure := by
  cases given with
  | nothing => exact exists_escaped_runCompile_nothing program
  | value output =>
    have hcompile : compile store output program.codes settings.tapeValue =
        (store, .error (.emit (.badTapeSize "[]"))) := by
      have hvalue : settings.tapeValue = .list [] := by rw [Settings.tapeValue, h]
      rw [hvalue]
      cases hopen : store.openForWriting output <;>
        simp [compile, compileInto, compileEvents, Emitter.create, Value.shown?, hopen]
    simp only [runCompile, hcompile]
    exact ⟨_, rfl⟩

/-- In each of these cases the run ends unhandled. -/
theorem Settings.Unhandled.exists_escaped (h : settings.Unhandled store)
    (hproper : settings.Proper) :
    ∃ failure, (runSettings logName settings store).ending = .escaped failure := by
  cases h with
  | nameless unset nameless =>
    exact exists_escaped_of_outputPath_eq_error (outputPath_of_name_eq_empty unset nameless)
  | noOutput bytes read missing =>
    have houtput : settings.outputPath = .ok .nothing := by rw [Settings.outputPath, missing]
    rw [runSettings_of_contents_eq_ok houtput read]
    exact exists_escaped_runCompile_nothing _
  | noSize bytes read missing =>
    cases houtput : settings.outputPath with
    | error error => exact exists_escaped_of_outputPath_eq_error houtput
    | ok given =>
      rw [runSettings_of_contents_eq_ok houtput read]
      exact exists_escaped_runCompile_of_tapeSize_eq_nothing _ given missing
  | tooManyLoops bytes output location read isOutput opened unwritable =>
    rw [runSettings_of_contents_eq_ok isOutput read]
    cases hsize : settings.tapeSize with
    | nothing => exact exists_escaped_runCompile_of_tapeSize_eq_nothing _ _ hsize
    | value size =>
      obtain ⟨hpos, -⟩ := hproper.size size hsize
      rw [tapeValue_of_tapeSize_eq_value hsize, generate_natCast hpos] at unwritable
      cases hrun : Emitter.run ((Instruction.ofBytes bytes).map .ok) .empty (.ofSize size hpos) with
      | ok _ finished =>
        rw [hrun] at unwritable
        cases unwritable
      | error error stopped =>
        rw [hrun] at unwritable
        cases unwritable
        rw [runCompile_of_run_eq_error hsize hpos opened hrun]
        exact ⟨_, rfl⟩

/-- With a size and an output that has a name once it opens, compiling comes to an exit code,
unless labels run out of digits. -/
theorem exit_runCompile {codes : List Instruction} {read : Nat}
    (hsize : settings.tapeSize = .value size) (hpos : 0 < size)
    (hwritable : Number.Writable size) (hclean : output.hasNul = false)
    (hname : ∀ location, store.openForWriting output = .ok location → output.name ≠ "")
    (hfits : ∀ location, store.openForWriting output = .ok location →
      generate codes (.int size) ≠ .error .unwritable) :
    (runCompile logName settings store ⟨codes, read⟩ (.value output)).ending = .exit 0 ∨
      (runCompile logName settings store ⟨codes, read⟩ (.value output)).ending = .exit 1 := by
  cases hopen : store.openForWriting output with
  | error error =>
    obtain ⟨fault, rfl⟩ := Store.exists_fault_of_openForWriting_eq_error hclean hopen
    rw [runCompile_of_openForWriting_eq_error hsize hpos hopen]
    exact .inr rfl
  | ok location =>
    cases hrun : Emitter.run (codes.map .ok) .empty (.ofSize size hpos) with
    | ok _ finished =>
      obtain ⟨object, executable, -, -, hdone⟩ := reportDone_of_name_ne_empty (hname location hopen)
        (settings.log [readLog settings.file codes.length read] ++
          settings.log [emitLog finished.lines (finished.nextLabel - 1)])
      rw [runCompile_of_run_eq_ok hsize hpos hopen hrun, hdone]
      exact .inl rfl
    | error error stopped =>
      rcases Emitter.eq_unwritable_or_loops_of_run_eq_error rfl hwritable hrun with
        rfl | ⟨unpaired, rfl⟩
      · refine absurd ?_ (hfits location hopen)
        rw [generate_natCast hpos, hrun]
      · rw [runCompile_of_run_eq_error hsize hpos hopen hrun]
        exact .inr rfl

/-- Every run in which nothing goes unhandled comes to an exit code. -/
theorem exit_of_not_unhandled (h : ¬ settings.Unhandled store) (hproper : settings.Proper)
    (hclean : settings.NulFree) (hstore : store.InDirectory) :
    (runSettings logName settings store).ending = .exit 0 ∨
      (runSettings logName settings store).ending = .exit 1 := by
  cases houtput : settings.outputPath with
  | error error =>
    -- Only a missing output can be refused, and only for a source file without a name.
    cases hunset : settings.output with
    | some given =>
      rw [Settings.outputPath, hunset] at houtput
      cases houtput
    | none =>
      by_cases hname : settings.file.name = ""
      · exact absurd (.nameless hunset hname) h
      · obtain ⟨output, -, hderived⟩ := exists_outputPath_of_name_ne_empty hunset hname
        rw [hderived] at houtput
        cases houtput
  | ok given =>
    cases hcontents : store.contents settings.file with
    | error error =>
      obtain ⟨fault, rfl⟩ := Store.exists_fault_of_contents_eq_error hclean.file hcontents
      rw [runSettings_of_contents_eq_error houtput hcontents]
      exact .inr rfl
    | ok bytes =>
      rw [runSettings_of_contents_eq_ok houtput hcontents]
      cases given with
      | nothing =>
        rcases of_outputPath_eq_ok houtput with hmissing | ⟨-, renamed, -, heq⟩
        · exact absurd (.noOutput bytes hcontents hmissing) h
        · cases heq
      | value output =>
        cases hsize : settings.tapeSize with
        | nothing => exact absurd (.noSize bytes hcontents hsize) h
        | value size =>
          obtain ⟨hpos, hwritable⟩ := hproper.size size hsize
          refine exit_runCompile hsize hpos hwritable (hasNul_of_outputPath_eq_ok hclean houtput)
            (fun location hopen => name_ne_empty_of_outputPath_eq_ok hproper hstore houtput hopen)
            (fun location hopen hgenerate => ?_)
          refine h (.tooManyLoops bytes output location hcontents houtput hopen ?_)
          rwa [tapeValue_of_tapeSize_eq_value hsize]

theorem exit_of_respond (stop : Stop) :
    (Settings.interface.respond stop).1 = 0 ∨ (Settings.interface.respond stop).1 = 2 := by
  cases stop with
  | help => exact .inl rfl
  | complaint text => exact .inr rfl

/-- **What goes unhandled.** For words without a NUL character, a run ends with a failure that
nothing handles exactly when the words are read and the settings are among the unhandled ones.
Every other run ends with an exit code: zero or two if the words are not read, and zero or one if
they are. -/
theorem run_escapes_iff_unhandled {arguments : List String}
    (harguments : ∀ argument ∈ arguments, '\x00' ∉ argument.toList) (hstore : store.InDirectory) :
    ((∃ failure, (run logName store arguments).ending = .escaped failure) ↔
      ∃ settings, Settings.read arguments = .ok settings ∧ settings.Unhandled store) ∧
    ((∀ failure, (run logName store arguments).ending ≠ .escaped failure) →
      (∃ stop, Settings.read arguments = .error stop ∧
        ((run logName store arguments).ending = .exit 0 ∨
          (run logName store arguments).ending = .exit 2)) ∨
      ∃ settings, Settings.read arguments = .ok settings ∧
        ((run logName store arguments).ending = .exit 0 ∨
          (run logName store arguments).ending = .exit 1)) := by
  cases hread : Settings.read arguments with
  | error stop =>
    have hrun : (run logName store arguments).ending =
        .exit (Settings.interface.respond stop).1 := by
      rw [run, hread]
    have hcode := exit_of_respond stop
    refine ⟨⟨?_, ?_⟩, fun _ => .inl ⟨stop, rfl, ?_⟩⟩
    · rintro ⟨failure, hfailure⟩
      rw [hrun] at hfailure
      cases hfailure
    · rintro ⟨settings, hsettings, -⟩
      cases hsettings
    · rw [hrun]
      exact hcode.imp (congrArg _) (congrArg _)
  | ok settings =>
    have hproper := Settings.proper_of_read_eq_ok hread
    have hclean := Settings.nulFree_of_read_eq_ok harguments hread
    have hrun : run logName store arguments = runSettings logName settings store := by
      rw [run, hread]
    rw [hrun]
    by_cases hunhandled : settings.Unhandled store
    · have hescaped : ∃ failure, (runSettings logName settings store).ending = .escaped failure :=
        hunhandled.exists_escaped hproper
      refine ⟨⟨fun _ => ⟨settings, rfl, hunhandled⟩, fun _ => hescaped⟩, fun hnone => ?_⟩
      obtain ⟨failure, hfailure⟩ := hescaped
      exact absurd hfailure (hnone failure)
    · have hexit : (runSettings logName settings store).ending = .exit 0 ∨
          (runSettings logName settings store).ending = .exit 1 :=
        exit_of_not_unhandled hunhandled hproper hclean hstore
      refine ⟨⟨?_, ?_⟩, fun _ => .inr ⟨settings, rfl, hexit⟩⟩
      · rintro ⟨failure, hfailure⟩
        rcases hexit with hexit | hexit <;> rw [hexit] at hfailure <;> cases hfailure
      · rintro ⟨other, hother, hescaping⟩
        cases hother
        exact absurd hescaping hunhandled

/-- The root directory as a source file, with no output file given. -/
theorem run_escapes_iff_unhandled_root :
    (∀ argument ∈ ["/"], '\x00' ∉ argument.toList) ∧ Store.InDirectory ⟨[], []⟩ ∧
      ∃ failure, (run defaultLogName ⟨[], []⟩ ["/"]).ending = .escaped failure := by
  have harguments : ∀ argument ∈ ["/"], '\x00' ∉ argument.toList := by decide
  have hstore : Store.InDirectory ⟨[], []⟩ := rfl
  have hread : Settings.read ["/"] =
      .ok ⟨⟨.absolute, []⟩, none, .value defaultTapeSize, false⟩ :=
    eq_ok_of_toOption_eq_some (by decide +kernel)
  exact ⟨harguments, hstore, (run_escapes_iff_unhandled harguments hstore).1.2
    ⟨_, hread, .nameless rfl rfl⟩⟩

/-- The working directory as a source file: the failure is that its path has no name. -/
theorem run_escapes_nameless_source :
    (∀ argument ∈ ["."], '\x00' ∉ argument.toList) ∧ Store.InDirectory ⟨[], []⟩ ∧
      (run defaultLogName ⟨[], []⟩ ["."]).ending =
        .escaped (.extension (.emptyName ⟨.relative, []⟩)) :=
  ⟨by decide, rfl, by decide +kernel⟩

end TapeCompiler.CommandLine
