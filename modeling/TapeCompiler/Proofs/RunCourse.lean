/-
# The course of a run

Once its command line is read, a run takes one of four courses. The source file
cannot be read; it can, but the output file cannot be opened; both can and the
program is balanced; both can and it is not. In the first two nothing changes, in
the third the output holds the text of the program, and in the fourth it holds the
part that was emitted before the fault was found. Nothing else is written.

This needs an output file and a size to work with. An option that was given the
separator in place of its value has neither, and then a failure goes unhandled.
-/

import TapeCompiler.CommandLine.Run
import TapeCompiler.Proofs.FileAccess

namespace TapeCompiler

open Brackets Assembly

/-- The number of instructions before the place where a fault in the brackets shows. -/
def LoopError.place (codes : List Instruction) : LoopError → Nat
  | unmatchedEnd index => index.toNat
  | unclosed _ => codes.length

theorem CompileError.ofEmitError_loops (path : Path) (error : LoopError) :
    ofEmitError path (.loops error) = .emit (.loops error) := rfl

theorem LoopError.exists_message?_unclosed {count : Nat} (h : Number.Writable count) :
    ∃ message, (unclosed count).message? = some message := by
  refine Option.isSome_iff_exists.1 ?_
  rw [message?, Number.numeral?_natCast h, Option.map_some, Option.isSome_some]

/-- A run over a program leaves in its sink the text that generation gives, if the program is
balanced, and else the text before the fault that generation reports. -/
theorem run_generates_or_stops {codes : List Instruction} {size : Nat} (hpos : 0 < size)
    (hsize : Number.Writable size) (hloops : Number.Writable (codes.count .loopStart)) :
    (Balanced codes ∧ ∃ finished text,
      Emitter.run (codes.map .ok) .empty (.ofSize size hpos) = .ok () finished ∧
      finished.text? = some text ∧ generate codes (.int size) = .ok text) ∨
    (¬ Balanced codes ∧ ∃ error stopped message,
      Emitter.run (codes.map .ok) .empty (.ofSize size hpos) = .error (.loops error) stopped ∧
      stopped.text? = some (textOf (prologue size ++ layout codes (error.place codes))) ∧
      generate codes (.int size) = .error (.loops error) ∧ error.message? = some message) := by
  have hunbalanced : ∀ error, generate codes (.int size) = .error error → ¬ Balanced codes := by
    intro error herror isBalanced
    obtain ⟨text, htext⟩ :=
      (generated_generate (by omega) hsize hloops).exists_eq_ok_iff.2 isBalanced
    rw [herror] at htext
    cases htext
  have hend : (Emitter.started (.ofSize size hpos) .empty).Ended codes
      (Emitter.run (codes.map .ok) .empty (.ofSize size hpos)) :=
    Emitter.ended_run rfl hsize hloops
  have hgenerate := @generate_natCast codes size hpos
  generalize Emitter.run (codes.map .ok) .empty (.ofSize size hpos) = result at hend hgenerate
  cases hend with
  | finished isBalanced =>
    have htext := Emitter.text?_advanced_started (.ofSize size hpos) codes codes.length []
    refine .inl ⟨isBalanced, _, _, rfl, htext, hgenerate.trans ?_⟩
    dsimp only
    rw [htext]
    rfl
  | unclosed p outer hopen =>
    -- The loops that are open are among those that were opened, so their number can be written.
    have hcount : Number.Writable (p :: outer).length := by
      refine hloops.of_le ?_
      have hdepth := hopen.neverBelow_and_depth_eq.2
      unfold depth at hdepth
      omega
    obtain ⟨message, hworded⟩ := LoopError.exists_message?_unclosed hcount
    exact .inr ⟨hunbalanced _ hgenerate, _, _, _, rfl,
      Emitter.text?_advanced_started _ codes codes.length _, hgenerate, hworded⟩
  | unmatched i hi hcloses htake =>
    exact .inr ⟨hunbalanced _ hgenerate, _, _, _, rfl,
      Emitter.text?_advanced_started _ codes i _, hgenerate, rfl⟩

namespace CommandLine

variable {logName : String} {settings : Settings} {store : Store} {file output : Path}
  {size : Nat} {bytes : List UInt8} {location : Location}

/-! ## The four courses -/

/-- The courses that a run may take. -/
inductive Course
  /-- The source file cannot be opened. -/
  | unreadable
  /-- The output file cannot be opened. -/
  | unwritable
  /-- The program is balanced. -/
  | compiled
  /-- The program is not balanced. -/
  | rejected
  deriving DecidableEq, Repr

/-- What a run reports in each course, and when it takes it. -/
inductive Follows (store : Store) (file output : Path) (size : Nat) :
    Report Escape → Course → Prop
  | unreadable (fault : IoFault) (unread : store.contents file = .error (.fault fault)) :
    Follows store file output size
      ⟨.exit 1, "", linesOf ["Cannot open " ++ file.text ++ ": " ++ fault.reason], store⟩
      .unreadable
  | unwritable (bytes : List UInt8) (fault : IoFault) (read : store.contents file = .ok bytes)
    (unopened : store.openForWriting output = .error (.fault fault)) :
    Follows store file output size
      ⟨.exit 1, "", linesOf ["Error compiling to " ++ output.text ++ ": " ++ fault.reason], store⟩
      .unwritable
  | compiled (bytes : List UInt8) (location : Location) (text : String) (object executable : Path)
    (after : Store) (read : store.contents file = .ok bytes)
    (opened : store.openForWriting output = .ok location)
    (balanced : Balanced (Instruction.ofBytes bytes))
    (generated : generate (Instruction.ofBytes bytes) (.int size) = .ok text)
    (rewritten : store.Rewritten output (Text.encodeUtf8 text) after)
    (isObject : output.withExtension "o" = .ok object)
    (isExecutable : output.withExtension "exe" = .ok executable) :
    Follows store file output size
      ⟨.exit 0, linesOf
        ["Done! Output has been written to " ++ output.text ++ ".",
          "You can compile it by running the following commands:",
          "  nasm -f elf64 -o " ++ object.text ++ " " ++ output.text,
          "  ld -o " ++ executable.text ++ " " ++ object.text], "", after⟩
      .compiled
  | rejected (bytes : List UInt8) (location : Location) (error : LoopError) (message : String)
    (after : Store) (read : store.contents file = .ok bytes)
    (opened : store.openForWriting output = .ok location)
    (unbalanced : ¬ Balanced (Instruction.ofBytes bytes))
    (failed : generate (Instruction.ofBytes bytes) (.int size) = .error (.loops error))
    (rewritten : store.Rewritten output (Text.encodeUtf8 (textOf (prologue size ++
      layout (Instruction.ofBytes bytes) (error.place (Instruction.ofBytes bytes))))) after)
    (worded : error.message? = some message) :
    Follows store file output size
      ⟨.exit 1, "", linesOf ["Error compiling to " ++ output.text ++ ": " ++ message], after⟩
      .rejected

/-- The course that a run takes. -/
def courseOf (store : Store) (file output : Path) : Course :=
  match store.contents file, store.openForWriting output with
  | .error _, _ => .unreadable
  | .ok _, .error _ => .unwritable
  | .ok bytes, .ok _ => if Balanced (Instruction.ofBytes bytes) then .compiled else .rejected

theorem Follows.eq_courseOf {report : Report Escape} {course : Course}
    (h : Follows store file output size report course) : course = courseOf store file output := by
  cases h with
  | unreadable fault unread => simp [courseOf, unread]
  | unwritable bytes fault read unopened => simp [courseOf, read, unopened]
  | compiled bytes location text object executable after read opened balanced =>
    simp [courseOf, read, opened, balanced]
  | rejected bytes location error message after read opened unbalanced =>
    simp [courseOf, read, opened, unbalanced]

/-! ## One stage after the other -/

theorem log_of_not_verbose (h : settings.verbose = false) (lines : List String) :
    settings.log lines = "" := by
  simp [Settings.log, h]

/-- The commands that are shown need an output file with a name. -/
theorem reportDone_of_name_ne_empty (h : output.name ≠ "") (log : String) :
    ∃ object executable, output.withExtension "o" = .ok object ∧
      output.withExtension "exe" = .ok executable ∧
      reportDone output log store = ⟨.exit 0, linesOf
        ["Done! Output has been written to " ++ output.text ++ ".",
          "You can compile it by running the following commands:",
          "  nasm -f elf64 -o " ++ object.text ++ " " ++ output.text,
          "  ld -o " ++ executable.text ++ " " ++ object.text], log, store⟩ := by
  have hobject := Path.withExtension_of_name_ne_empty (by decide : Path.IsExtension "o") h
  have hexecutable := Path.withExtension_of_name_ne_empty (by decide : Path.IsExtension "exe") h
  refine ⟨_, _, hobject, hexecutable, ?_⟩
  simp only [reportDone, toolchainHint, hobject, hexecutable, bind, Except.bind, pure, Except.pure]
  rfl

theorem reportFailed_output (hquiet : settings.verbose = false) (path : Path) (fault : IoFault) :
    reportFailed logName settings output "" store (.output path fault) =
      ⟨.exit 1, "", linesOf ["Error compiling to " ++ output.text ++ ": " ++ fault.reason],
        store⟩ := by
  rw [reportFailed, log_of_not_verbose hquiet, String.empty_append, String.empty_append]
  rfl

theorem reportFailed_loops {error : LoopError} {message : String}
    (hquiet : settings.verbose = false) (hworded : error.message? = some message) :
    reportFailed logName settings output "" store (.emit (.loops error)) =
      ⟨.exit 1, "", linesOf ["Error compiling to " ++ output.text ++ ": " ++ message],
        store⟩ := by
  have hmessage : (CompileError.emit (.loops error)).message = message := by
    show error.message = message
    rw [LoopError.message, hworded, Option.getD_some]
  rw [reportFailed, log_of_not_verbose hquiet, String.empty_append, String.empty_append, hmessage]

theorem runSettings_of_contents_eq_error {given : Given Path} {fault : IoFault}
    (houtput : settings.outputPath = .ok given)
    (h : store.contents settings.file = .error (.fault fault)) :
    runSettings logName settings store =
      ⟨.exit 1, "", linesOf ["Cannot open " ++ settings.file.text ++ ": " ++ fault.reason],
        store⟩ := by
  simp only [runSettings, houtput, Program.load, h]
  rfl

theorem runSettings_of_contents_eq_ok {given : Given Path}
    (houtput : settings.outputPath = .ok given)
    (h : store.contents settings.file = .ok bytes) :
    runSettings logName settings store =
      runCompile logName settings store ⟨Instruction.ofBytes bytes, bytes.length⟩ given := by
  simp only [runSettings, houtput, Program.load_of_contents_eq_ok h]

theorem tapeValue_of_tapeSize_eq_value (h : settings.tapeSize = .value size) :
    settings.tapeValue = .int size := by
  rw [Settings.tapeValue, h]

section RunCompile

variable {codes : List Instruction} {read : Nat}
variable (hsize : settings.tapeSize = .value size) (hpos : 0 < size)
include hsize hpos

theorem runCompile_of_openForWriting_eq_error {fault : IoFault}
    (h : store.openForWriting output = .error (.fault fault)) :
    runCompile logName settings store ⟨codes, read⟩ (.value output) =
      reportFailed logName settings output
        (settings.log [readLog settings.file codes.length read]) store (.output output fault) := by
  simp only [runCompile, tapeValue_of_tapeSize_eq_value hsize,
    compile_of_openForWriting_eq_error hpos h]

theorem runCompile_of_run_eq_ok {finished : Emitter}
    (h : store.openForWriting output = .ok location)
    (hrun : Emitter.run (codes.map .ok) .empty (.ofSize size hpos) = .ok () finished) :
    runCompile logName settings store ⟨codes, read⟩ (.value output) =
      reportDone output (settings.log [readLog settings.file codes.length read] ++
          settings.log [emitLog finished.lines (finished.nextLabel - 1)])
        (store.receive location finished.text?) := by
  simp only [runCompile, tapeValue_of_tapeSize_eq_value hsize,
    compile_of_openForWriting_eq_ok hpos h, hrun]

theorem runCompile_of_run_eq_error {error : EmitError} {stopped : Emitter}
    (h : store.openForWriting output = .ok location)
    (hrun : Emitter.run (codes.map .ok) .empty (.ofSize size hpos) =
      .error error stopped) :
    runCompile logName settings store ⟨codes, read⟩ (.value output) =
      reportFailed logName settings output
        (settings.log [readLog settings.file codes.length read])
        (store.receive location stopped.text?) (.ofEmitError output error) := by
  simp only [runCompile, tapeValue_of_tapeSize_eq_value hsize,
    compile_of_openForWriting_eq_ok hpos h, hrun]

end RunCompile

/-! ## The output file -/

/-- Where no output file is given, it is the source file with another extension. -/
theorem of_outputPath_eq_ok {given : Given Path} (h : settings.outputPath = .ok given) :
    settings.output = some given ∨ settings.output = none ∧
      ∃ renamed, settings.file.withExtension "asm" = .ok renamed ∧ given = .value renamed := by
  unfold Settings.outputPath at h
  split at h
  · next hgiven =>
    cases h
    exact .inl hgiven
  · next hnone =>
    cases hrenamed : settings.file.withExtension "asm" with
    | error error =>
      rw [hrenamed] at h
      cases h
    | ok renamed =>
      rw [hrenamed] at h
      cases h
      exact .inr ⟨hnone, renamed, rfl, rfl⟩

theorem exists_outputPath_of_name_ne_empty (h : settings.output = none)
    (hname : settings.file.name ≠ "") :
    ∃ output, settings.file.withExtension "asm" = .ok output ∧
      settings.outputPath = .ok (.value output) := by
  have hrenamed := Path.withExtension_of_name_ne_empty (by decide : Path.IsExtension "asm") hname
  refine ⟨_, hrenamed, ?_⟩
  simp only [Settings.outputPath, h, hrenamed]
  rfl

theorem outputPath_of_name_eq_empty (h : settings.output = none)
    (hname : settings.file.name = "") :
    settings.outputPath = .error (.emptyName settings.file) := by
  have hrefused := Path.withExtension_of_name_eq_empty (by decide : Path.IsExtension "asm") hname
  simp only [Settings.outputPath, h, hrefused]
  rfl

theorem hasNul_of_outputPath_eq_ok (hclean : settings.NulFree)
    (h : settings.outputPath = .ok (.value output)) : output.hasNul = false := by
  rcases of_outputPath_eq_ok h with hgiven | ⟨-, renamed, hrenamed, heq⟩
  · exact hclean.output output hgiven
  · cases heq
    exact (Path.of_withExtension_eq_ok (by decide) (by decide) hrenamed).2 hclean.file

/-- An output file that opens has a name, so showing the commands cannot fail. -/
theorem name_ne_empty_of_outputPath_eq_ok (hproper : settings.Proper) (hstore : store.InDirectory)
    (h : settings.outputPath = .ok (.value output))
    (hopen : store.openForWriting output = .ok location) : output.name ≠ "" := by
  rcases of_outputPath_eq_ok h with hgiven | ⟨-, renamed, hrenamed, heq⟩
  · obtain ⟨text, rfl⟩ := hproper.output output hgiven
    intro hempty
    exact Store.parts_ne_nil_of_openForWriting_eq_ok hstore hopen
      (Path.parts_eq_nil_of_name_ofText_eq_empty hempty)
  · cases heq
    exact (Path.of_withExtension_eq_ok (by decide) (by decide) hrenamed).1

/-! ## Every run takes one course -/

theorem count_loopStart_ofBytes_le (bytes : List UInt8) :
    (Instruction.ofBytes bytes).count .loopStart ≤ bytes.length :=
  List.count_le_length.trans (List.length_filterMap_le _ _)

theorem exists_follows_runSettings (hproper : settings.Proper) (hclean : settings.NulFree)
    (hstore : store.InDirectory) (hquiet : settings.verbose = false)
    (hsize : settings.tapeSize = .value size)
    (houtput : settings.outputPath = .ok (.value output))
    (hbytes : ∀ bytes, store.contents settings.file = .ok bytes → Number.Writable bytes.length) :
    ∃ course, Follows store settings.file output size (runSettings logName settings store)
      course := by
  obtain ⟨hpos, hwritable⟩ := hproper.size size hsize
  cases hcontents : store.contents settings.file with
  | error error =>
    obtain ⟨fault, rfl⟩ := Store.exists_fault_of_contents_eq_error hclean.file hcontents
    rw [runSettings_of_contents_eq_error houtput hcontents]
    exact ⟨_, .unreadable fault hcontents⟩
  | ok bytes =>
    rw [runSettings_of_contents_eq_ok houtput hcontents]
    cases hopen : store.openForWriting output with
    | error error =>
      obtain ⟨fault, rfl⟩ := Store.exists_fault_of_openForWriting_eq_error
        (hasNul_of_outputPath_eq_ok hclean houtput) hopen
      rw [runCompile_of_openForWriting_eq_error hsize hpos hopen, log_of_not_verbose hquiet,
        reportFailed_output hquiet]
      exact ⟨_, .unwritable bytes fault hcontents hopen⟩
    | ok location =>
      have hloops : Number.Writable ((Instruction.ofBytes bytes).count .loopStart) :=
        (hbytes bytes hcontents).of_le (count_loopStart_ofBytes_le bytes)
      rcases run_generates_or_stops hpos hwritable hloops with
        ⟨hbalanced, finished, text, hrun, htext, hgenerate⟩ |
        ⟨hunbalanced, error, stopped, message, hrun, htext, hgenerate, hworded⟩
      · have hname : output.name ≠ "" :=
          name_ne_empty_of_outputPath_eq_ok hproper hstore houtput hopen
        obtain ⟨object, executable, hobject, hexecutable, hdone⟩ :=
          reportDone_of_name_ne_empty hname ""
        rw [runCompile_of_run_eq_ok hsize hpos hopen hrun, log_of_not_verbose hquiet,
          log_of_not_verbose hquiet, String.empty_append, hdone, htext]
        exact ⟨_, .compiled bytes location text object executable _ hcontents hopen hbalanced
          hgenerate (Store.rewritten_set hopen _) hobject hexecutable⟩
      · rw [runCompile_of_run_eq_error hsize hpos hopen hrun, htext, log_of_not_verbose hquiet,
          CompileError.ofEmitError_loops, reportFailed_loops hquiet hworded]
        exact ⟨_, .rejected bytes location error message _ hcontents hopen hunbalanced hgenerate
          (Store.rewritten_set hopen _) hworded⟩

/-- **The course of a run.** Words that the command line reads as a source file, an output file or
none, a size and no log lines lead into exactly one of the four courses, provided that there is an
output file to name. In particular every failure on the way is handled. -/
theorem run_follows_one_course (logName : String) {arguments : List String} (out : Option Path)
    (hread : Settings.read arguments = .ok ⟨file, out.map .value, .value size, false⟩)
    (hname : out.isSome ∨ file.name ≠ "") (hstore : store.InDirectory)
    (hfile : file.hasNul = false) (hout : ∀ path ∈ out, path.hasNul = false)
    (hbytes : ∀ bytes, store.contents file = .ok bytes → Number.Writable bytes.length) :
    ∃ output, (out = some output ∨ out = none ∧ file.withExtension "asm" = .ok output) ∧
      ∃! course, Follows store file output size (run logName store arguments) course := by
  have hproper := Settings.proper_of_read_eq_ok hread
  have hclean : Settings.NulFree ⟨file, out.map .value, .value size, false⟩ := by
    refine ⟨hfile, fun path hpath => hout path ?_⟩
    obtain ⟨given, hgiven, heq⟩ := Option.map_eq_some_iff.1 hpath
    cases heq
    exact hgiven
  have hrun : run logName store arguments =
      runSettings logName ⟨file, out.map .value, .value size, false⟩ store := by
    rw [run, hread]
  have houtput : ∃ output, (out = some output ∨ out = none ∧
      file.withExtension "asm" = .ok output) ∧
      Settings.outputPath ⟨file, out.map .value, .value size, false⟩ = .ok (.value output) := by
    cases out with
    | some path => exact ⟨path, .inl rfl, rfl⟩
    | none =>
      obtain ⟨output, hrenamed, houtput⟩ := exists_outputPath_of_name_ne_empty
        (rfl : (⟨file, none, .value size, false⟩ : Settings).output = none)
        (hname.resolve_left nofun)
      exact ⟨output, .inr ⟨rfl, hrenamed⟩, houtput⟩
  obtain ⟨output, hgiven, houtput⟩ := houtput
  obtain ⟨course, hcourse⟩ :=
    exists_follows_runSettings hproper hclean hstore rfl rfl houtput hbytes
  refine ⟨output, hgiven, course, hrun ▸ hcourse, fun other hother => ?_⟩
  rw [hother.eq_courseOf, hcourse.eq_courseOf]

/-- A store with one file, in the root directory, which is the working directory. -/
def oneFile (name : String) (bytes : List UInt8) : Store := ⟨[([name], .file bytes)], []⟩

/-- A source file that is its own output: its bytes are read before they are gone, and the fault
found in them leaves the text before it. -/
theorem run_follows_one_course_onto_source :
    Settings.read ["p.bf", "-o", "p.bf", "--tape-size=8"] =
        .ok ⟨Path.ofText "p.bf", some (.value (Path.ofText "p.bf")), .value 8, false⟩ ∧
      (oneFile "p.bf" [43, 93]).InDirectory ∧
      Follows (oneFile "p.bf" [43, 93]) (Path.ofText "p.bf") (Path.ofText "p.bf") 8
        (run defaultLogName (oneFile "p.bf" [43, 93]) ["p.bf", "-o", "p.bf", "--tape-size=8"])
        .rejected := by
  have hread : Settings.read ["p.bf", "-o", "p.bf", "--tape-size=8"] =
      .ok ⟨Path.ofText "p.bf", some (.value (Path.ofText "p.bf")), .value 8, false⟩ :=
    eq_ok_of_toOption_eq_some (by decide +kernel)
  have hstore : (oneFile "p.bf" [43, 93]).InDirectory := rfl
  have hcontents : (oneFile "p.bf" [43, 93]).contents (Path.ofText "p.bf") = .ok [43, 93] :=
    eq_ok_of_toOption_eq_some (by decide +kernel)
  have hclean : (Path.ofText "p.bf").hasNul = false := by decide +kernel
  have hbytes : ∀ bytes, (oneFile "p.bf" [43, 93]).contents (Path.ofText "p.bf") = .ok bytes →
      Number.Writable bytes.length := by
    intro bytes h
    cases hcontents.symm.trans h
    decide +kernel
  obtain ⟨output, hgiven, course, hcourse, -⟩ := run_follows_one_course defaultLogName
    (some (Path.ofText "p.bf")) hread (.inl rfl) hstore hclean
    (by rintro _ ⟨⟩; exact hclean) hbytes
  obtain rfl : Path.ofText "p.bf" = output := by
    rcases hgiven with hgiven | ⟨hnone, -⟩
    · exact Option.some.inj hgiven
    · cases hnone
  have hrejected : courseOf (oneFile "p.bf" [43, 93]) (Path.ofText "p.bf") (Path.ofText "p.bf") =
      .rejected := by decide +kernel
  rw [hcourse.eq_courseOf, hrejected] at hcourse
  exact ⟨hread, hstore, hcourse⟩

/-- The separator in place of an output file is read and then handled nowhere. -/
theorem run_escapes_separator_as_output :
    Settings.read ["p.bf", "--out=--"] =
        .ok ⟨Path.ofText "p.bf", some .nothing, .value defaultTapeSize, false⟩ ∧
      (oneFile "p.bf" [43]).InDirectory ∧
      (run defaultLogName (oneFile "p.bf" [43]) ["p.bf", "--out=--"]).ending =
        .escaped .noOutputPath :=
  ⟨eq_ok_of_toOption_eq_some (by decide +kernel), rfl, by decide +kernel⟩

end CommandLine

end TapeCompiler
