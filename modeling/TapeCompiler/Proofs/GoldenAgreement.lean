/-
# Two ways to compile a case

A case can be compiled from inside its directory, with the program, the output and the
size as words of the command line. Its check takes the size from the settings instead
and compiles into memory. Both come to one run of an emitter over the same program and
for the same tape: a numeral within the digit limit is the same number in both readers,
the two paths to a file lead to one place, and a text read from the output file is the
text that was written. So they agree in what they accept, in the text, and in the
message of what they reject.
-/

import TapeCompiler.Proofs.GoldenUpdate
import TapeCompiler.Proofs.OptionPhrases

namespace TapeCompiler

open CommandLine (Report Escape)

/-! ## A store seen from a directory -/

namespace Store

variable {store : Store} {directory : Location} {file : String}

/-- The store with another working directory. -/
def inside (store : Store) (directory : Location) : Store :=
  { store with workingDirectory := directory }

theorem node?_inside (store : Store) (directory place : Location) :
    (store.inside directory).node? place = store.node? place := rfl

theorem inside_set_inside (store : Store) (directory place : Location) (node : Node) :
    ((store.inside directory).set place node).inside store.workingDirectory =
      store.set place node := rfl

/-- From inside a directory, the name of a file leads to it. -/
theorem find_inside (h : store.node? directory = some .directory) (hfile : IsFileName file) :
    (store.inside directory).find ⟨.relative, [file]⟩ =
      .ok (directory ++ [file], store.node? (directory ++ [file])) := by
  have hhere : (store.inside directory).find ⟨.relative, []⟩ =
      .ok (directory, some .directory) := by
    have hlocate : (store.inside directory).locate ⟨.relative, []⟩ = .ok directory := rfl
    rw [find_of_locate_eq_ok rfl hlocate, node?_inside, h]
  have htext : (Path.join ⟨.relative, []⟩ ⟨.relative, [file]⟩).text = file := by
    simp [Path.join_singleton, Path.text, Root.text]
  refine find_join hhere hfile ?_
  rw [htext]
  exact Nat.lt_of_le_of_lt hfile.short (by decide)

end Store

namespace Golden

variable {store : Store} {golden : Directory} {name : String} {directory : Location}
  {bytes : List UInt8} {size : Nat} {logName message : String}

/-! ## Rejected programs -/

/-- Work on a case fails because the brackets of its program do not pair up, with a message. -/
def Rejects {α : Type} (result : Except Failure α) (message : String) : Prop :=
  ∃ error : LoopError, error.message = message ∧ result = .error (.emit (.loops error))

/-- A run of the compiler ends with the code and the message of a program it rejects. -/
def ReportsRejection (report : Report Escape) (message : String) : Prop :=
  report.ending = .exit 1 ∧
    report.err = CommandLine.linesOf ["Error compiling to program.asm: " ++ message]

theorem rejects_check_iff : Rejects (check store golden name) message ↔
    Rejects (actual store golden name) message := by
  cases hactual : actual store golden name with
  | error failure => simp [Rejects, check, hactual, bind, Except.bind]
  | ok text =>
    simp only [Rejects, check, hactual, bind, Except.bind]
    cases TextFile.read store (caseFile golden name expectedFile) <;>
      simp [throw, throwThe, MonadExceptOf.throw, pure, Except.pure]

theorem rejects_regenerate_iff : Rejects (regenerate store golden name).2 message ↔
    Rejects (actual store golden name) message := by
  cases hactual : actual store golden name with
  | error failure => simp [Rejects, regenerate, hactual]
  | ok text =>
    simp only [Rejects, regenerate, hactual]
    cases hwrite : TextFile.write store (caseFile golden name expectedFile) text
        golden.room.directories with
    | mk after outcome => cases outcome <;> simp

/-! ## Compiling a case from inside its directory -/

/-- A case with a program, with the size of the tape as a whole number in its settings, and with
an expected file that is there as a file or not there at all. -/
structure SizedCase (store : Store) (golden : Directory) (name : String) (directory : Location)
    (bytes : List UInt8) (size : Nat) : Prop where
  located : store.locate (caseDirectory golden name) = .ok directory
  program : store.contents (caseFile golden name programFile) = .ok bytes
  settings : ∃ members, settings store golden name = .ok (.object members) ∧
    Document.member? "tape_size" members = some (.int size)
  expected : ∃ place found, store.find (caseFile golden name expectedFile) = .ok (place, found) ∧
    found ≠ some .directory

/-- The run of the compiler from inside a directory, over the program there into the expected file
there, for a tape of a given size. -/
def compileHere (logName : String) (store : Store) (directory : Location) (size : Nat) :
    Report Escape :=
  CommandLine.run logName (store.inside directory)
    [programFile, "-o", expectedFile, "--tape-size", toString size]

/-- The settings that its words ask for. -/
def settingsHere (size : Nat) : CommandLine.Settings :=
  ⟨⟨.relative, [programFile]⟩, some (.value ⟨.relative, [expectedFile]⟩), .value size, false⟩

/-- What that run leaves, seen from where the store was seen before. -/
def leftHere (logName : String) (store : Store) (directory : Location) (size : Nat) : Store :=
  (compileHere logName store directory size).store.inside store.workingDirectory

/-- How such a run may end that leaves a text in the expected file. -/
inductive EndsAs (codes : List Instruction) (size : Nat) (report : Report Escape) (text : String) :
    Prop
  | compiled (generated : generate codes (.int size) = .ok text)
    (ending : report.ending = .exit 0) : EndsAs codes size report text
  | rejected (error : LoopError) (generated : generate codes (.int size) = .error (.loops error))
    (reports : ReportsRejection report error.message) : EndsAs codes size report text
  | unhandled (escape : Escape) (generated : generate codes (.int size) = .error .unwritable)
    (ending : report.ending = .escaped escape) : EndsAs codes size report text

namespace SizedCase

variable (h : SizedCase store golden name directory bytes size)
include h

theorem found : store.find (caseDirectory golden name) = .ok (directory, some .directory) := by
  obtain ⟨place, hprogram⟩ := Store.exists_find_of_contents_eq_ok h.program
  rw [caseFile_eq] at hprogram
  obtain ⟨-, elsewhere, hfound⟩ :=
    Store.exists_find_of_find_join isFileName_programFile.nonempty hprogram
  obtain ⟨-, hlocate, -⟩ := Store.of_find_eq_ok hfound
  obtain rfl : directory = elsewhere := Except.ok.inj (h.located.symm.trans hlocate)
  exact hfound

theorem node?_programFile : store.node? (directory ++ [programFile]) = some (.file bytes) := by
  obtain ⟨place, hprogram⟩ := Store.exists_find_of_contents_eq_ok h.program
  exact (Store.eq_of_find_join h.found isFileName_programFile hprogram).2

theorem node?_expectedFile : store.node? (directory ++ [expectedFile]) ≠ some .directory := by
  obtain ⟨place, found, hexpected, hplain⟩ := h.expected
  obtain ⟨-, hnode⟩ := Store.eq_of_find_join h.found isFileName_expectedFile hexpected
  rwa [hnode]

theorem openForWriting_expectedFile : store.openForWriting (caseFile golden name expectedFile) =
    .ok (directory ++ [expectedFile]) := by
  obtain ⟨place, found, hexpected, hplain⟩ := h.expected
  obtain ⟨rfl, -⟩ := Store.eq_of_find_join h.found isFileName_expectedFile hexpected
  exact Store.openForWriting_of_find hexpected hplain

theorem contents_rewritten (text : String) :
    (rewritten store directory text).contents (caseFile golden name expectedFile) =
      .ok (Text.encodeUtf8 text) :=
  (Store.rewritten_set h.openForWriting_expectedFile _).contents

/-- A text in the expected file does not change what the case compiles to. -/
theorem rewritten (text : String) :
    SizedCase (rewritten store directory text) golden name directory bytes size := by
  obtain ⟨members, hsettings, hsize⟩ := h.settings
  have hkept := directoriesIn_rewritten h.node?_expectedFile text
  have hfind : ∀ file, Store.IsFileName file → file ≠ expectedFile →
      (Golden.rewritten store directory text).find (caseFile golden name file) =
        store.find (caseFile golden name file) := fun file hfile hother =>
    find_caseFile_rewritten h.node?_expectedFile text hfile h.found (.inr hother)
  obtain ⟨place, hexpected⟩ := Store.exists_find_of_contents_eq_ok (h.contents_rewritten text)
  exact ⟨hkept.locate h.located,
    (Store.contents_congr (hfind programFile isFileName_programFile (by decide))).trans h.program,
    ⟨members, settings_eq_ok_of_find_eq
      (hfind settingsFile isFileName_settingsFile (by decide)) hsettings, hsize⟩,
    ⟨_, _, hexpected, by simp⟩⟩

/-- The check compiles what the command line names, for the size it names. -/
theorem actual_eq : actual store golden name =
    (generate (Instruction.ofBytes bytes) (.int size)).mapError .emit := by
  obtain ⟨members, hsettings, hsize⟩ := h.settings
  refine actual_of_contents_eq_ok hsettings ?_ h.program
  rw [tapeSize, hsize]
  rfl

theorem actual_eq_ok_iff {text : String} : actual store golden name = .ok text ↔
    generate (Instruction.ofBytes bytes) (.int size) = .ok text := by
  rw [h.actual_eq]
  cases generate (Instruction.ofBytes bytes) (.int size) <;> simp [Except.mapError]

theorem rejects_iff : Rejects (actual store golden name) message ↔
    ∃ error : LoopError, error.message = message ∧
      generate (Instruction.ofBytes bytes) (.int size) = .error (.loops error) := by
  rw [h.actual_eq]
  cases generate (Instruction.ofBytes bytes) (.int size) <;> simp [Rejects, Except.mapError]

theorem openForWriting_inside :
    (store.inside directory).openForWriting ⟨.relative, [expectedFile]⟩ =
      .ok (directory ++ [expectedFile]) :=
  Store.openForWriting_of_find
    (Store.find_inside (Store.of_find_eq_ok h.found).2.2 isFileName_expectedFile)
    h.node?_expectedFile

/-- The run from inside the directory compiles the program of the case into its expected file. -/
theorem compileHere_eq (logName : String) (hpos : 0 < size) (hlimit : Number.Writable size) :
    compileHere logName store directory size = CommandLine.runCompile logName (settingsHere size)
      (store.inside directory) ⟨Instruction.ofBytes bytes, bytes.length⟩
      (.value ⟨.relative, [expectedFile]⟩) := by
  have hread := CommandLine.Settings.read_source_output_size
    (by decide : programFile.toList.head? ≠ some '-')
    (by decide : expectedFile.toList.head? ≠ some '-') hpos hlimit
  rw [show Path.ofText programFile = ⟨.relative, [programFile]⟩ by decide +kernel,
    show Path.ofText expectedFile = ⟨.relative, [expectedFile]⟩ by decide +kernel] at hread
  have hcontents : (store.inside directory).contents ⟨.relative, [programFile]⟩ = .ok bytes := by
    rw [Store.contents, Store.find_inside (Store.of_find_eq_ok h.found).2.2 isFileName_programFile,
      h.node?_programFile]
    rfl
  rw [compileHere, CommandLine.run, hread]
  exact CommandLine.runSettings_of_contents_eq_ok rfl hcontents

/-- That run writes one text into the expected file and ends as generation does. -/
theorem exists_endsAs (logName : String) (hpos : 0 < size) (hlimit : Number.Writable size) :
    ∃ text, leftHere logName store directory size = Golden.rewritten store directory text ∧
      EndsAs (Instruction.ofBytes bytes) size (compileHere logName store directory size) text := by
  -- The text in the sink of the emitter is what goes to the file, however its run ends.
  have htext := Emitter.text?_leftBy_run (.ofSize size hpos) ((Instruction.ofBytes bytes).map .ok)
  generalize String.join (Emitter.freeWrites (.ofSize size hpos)
    ((Instruction.ofBytes bytes).map .ok)) = text at htext
  have hopen := h.openForWriting_inside
  refine ⟨text, ?_, ?_⟩
  · obtain ⟨hwritten, -⟩ := compile_eq_of_openForWriting_eq_ok hpos hopen htext
    rw [leftHere, h.compileHere_eq logName hpos hlimit, CommandLine.store_runCompile,
      CommandLine.tapeValue_of_tapeSize_eq_value rfl, hwritten, Store.inside_set_inside]
    rfl
  · rw [h.compileHere_eq logName hpos hlimit]
    cases hrun : Emitter.run ((Instruction.ofBytes bytes).map .ok) .empty (.ofSize size hpos) with
    | ok _ finished =>
      have hname : (⟨.relative, [expectedFile]⟩ : Path).name ≠ "" := by decide +kernel
      obtain ⟨object, executable, -, -, hdone⟩ := CommandLine.reportDone_of_name_ne_empty hname _
      rw [CommandLine.runCompile_of_run_eq_ok rfl hpos hopen hrun, hdone]
      rw [hrun] at htext
      have hfinished : finished.text? = some text := htext
      refine .compiled ?_ rfl
      rw [generate_natCast hpos, hrun]
      dsimp only
      rw [hfinished, Option.getD_some]
    | error error stopped =>
      have hgenerate : generate (Instruction.ofBytes bytes) (.int size) = .error error := by
        rw [generate_natCast hpos, hrun]
      rw [CommandLine.runCompile_of_run_eq_error rfl hpos hopen hrun,
        CommandLine.log_of_not_verbose rfl]
      rcases Emitter.eq_unwritable_or_loops_of_run_eq_error rfl hlimit hrun with
        rfl | ⟨unpaired, rfl⟩
      · exact .unhandled _ hgenerate rfl
      · refine .rejected unpaired hgenerate ⟨rfl, ?_⟩
        rw [CompileError.ofEmitError_loops, CommandLine.reportFailed,
          CommandLine.log_of_not_verbose rfl, String.empty_append, String.empty_append]
        rfl

end SizedCase

theorem linesOf_singleton_injective {intro first second : String}
    (h : CommandLine.linesOf [intro ++ first] = CommandLine.linesOf [intro ++ second]) :
    first = second := by
  have hchars := congrArg String.toList h
  exact String.toList_inj.1 (by simpa [CommandLine.linesOf] using hchars)

/-- A run that ends like this reports a rejection exactly if generation stops at the brackets. -/
theorem EndsAs.reportsRejection_iff {codes : List Instruction} {report : Report Escape}
    {text : String} (h : EndsAs codes size report text) :
    ReportsRejection report message ↔ ∃ error : LoopError, error.message = message ∧
      generate codes (.int size) = .error (.loops error) := by
  cases h with
  | compiled generated ending => simp [ReportsRejection, ending, generated]
  | unhandled escape generated ending => simp [ReportsRejection, ending, generated]
  | rejected error generated reports =>
    constructor
    · intro hmessage
      exact ⟨error, linesOf_singleton_injective (reports.2.symm.trans hmessage.2), generated⟩
    · rintro ⟨other, rfl, hother⟩
      rw [generated] at hother
      cases hother
      exact reports

theorem EndsAs.exit_zero_iff {codes : List Instruction} {report : Report Escape}
    {text : String} (h : EndsAs codes size report text) :
    report.ending = .exit 0 ↔ ∃ generated, generate codes (.int size) = .ok generated := by
  cases h with
  | compiled generated ending => simp [ending, generated]
  | rejected error generated reports => simp [reports.1, generated]
  | unhandled escape generated ending => simp [ending, generated]

theorem EndsAs.eq_of_generate_eq_ok {codes : List Instruction} {report : Report Escape}
    {text generated : String} (h : EndsAs codes size report text)
    (hgenerate : generate codes (.int size) = .ok generated) : generated = text := by
  cases h with
  | compiled written _ => exact Except.ok.inj (hgenerate.symm.trans written)
  | rejected _ failed _ => cases hgenerate.symm.trans failed
  | unhandled _ failed _ => cases hgenerate.symm.trans failed

/-- **The check of a case and the command line agree.** Take a case with any program, with a
positive size within the digit limit in its settings, and with an expected file that is a file or
missing. The run of the compiler from inside its directory, for that size, ends well exactly if the
case compiles. Behind a run that ends well the check of the case finds nothing, and regenerating the
case leaves the file system exactly as it is. The run ends with the message of a pairing error
exactly if the check, and exactly if the regeneration, fails on such an error with that message,
before the run and behind it. -/
theorem check_agrees_with_command_line (logName : String)
    (h : SizedCase store golden name directory bytes size) (hpos : 1 ≤ size)
    (hlimit : Number.Writable size) :
    ((compileHere logName store directory size).ending = .exit 0 ↔
      ∃ text, actual store golden name = .ok text) ∧
    ((compileHere logName store directory size).ending = .exit 0 →
      check (leftHere logName store directory size) golden name = .ok none ∧
      regenerate (leftHere logName store directory size) golden name =
        (leftHere logName store directory size, .ok ())) ∧
    ∀ now ∈ [store, leftHere logName store directory size], ∀ message,
      (ReportsRejection (compileHere logName store directory size) message ↔
        Rejects (check now golden name) message) ∧
      (ReportsRejection (compileHere logName store directory size) message ↔
        Rejects (regenerate now golden name).2 message) := by
  obtain ⟨text, hleft, hends⟩ := h.exists_endsAs logName hpos hlimit
  rw [hleft]
  refine ⟨?_, ?_, ?_⟩
  · rw [hends.exit_zero_iff]
    exact exists_congr fun generated => h.actual_eq_ok_iff.symm
  · intro hexit
    obtain ⟨generated, hgenerate⟩ := hends.exit_zero_iff.1 hexit
    obtain rfl := hends.eq_of_generate_eq_ok hgenerate
    have hactual := (h.rewritten generated).actual_eq_ok_iff.2 hgenerate
    have hcurrent : UpToDate (rewritten store directory generated) golden name :=
      ⟨generated, hactual, h.contents_rewritten generated⟩
    exact ⟨hcurrent.check_eq, hcurrent.regenerate_eq⟩
  · intro now hnow message
    have hcase : SizedCase now golden name directory bytes size := by
      simp only [List.mem_cons, List.not_mem_nil, or_false] at hnow
      rcases hnow with rfl | rfl
      · exact h
      · exact h.rewritten text
    rw [rejects_check_iff, rejects_regenerate_iff, hcase.rejects_iff, hends.reportsRejection_iff]
    exact ⟨Iff.rfl, Iff.rfl⟩

/-- A store with one case: any program, and settings that give the size and nothing else. -/
def sizedStore (bytes : List UInt8) (size : Nat) : Store where
  entries :=
    [(["golden"], .directory), (["golden", "a"], .directory),
     (["golden", "a", programFile], .file bytes),
     (["golden", "a", settingsFile], .file (Text.encodeUtf8 (Document.sizeText size)))]
  workingDirectory := []

theorem settings_of_contents_eq_encodeUtf8 {text : String} {document : Document}
    (hcontents : store.contents (caseFile golden name settingsFile) = .ok (Text.encodeUtf8 text))
    (htext : '\r' ∉ text.toList)
    (hread : Document.read golden.room.containers text = .ok document) :
    settings store golden name = .ok document := by
  obtain ⟨place, hfind⟩ := Store.exists_find_of_contents_eq_ok hcontents
  simp only [settings, Store.pathExists, Store.look, hfind, Except.map, Option.isSome_some,
    TextFile.read_of_contents_eq_encodeUtf8 hcontents htext, hread]

/-- Every program and every size within the limit make such a case. -/
theorem sizedCase_sizedStore (bytes : List UInt8) (hpos : 1 ≤ size)
    (hlimit : Number.Writable size) :
    SizedCase (sizedStore bytes size) goldenDirectory "a" ["golden", "a"] bytes size where
  located := rfl
  program := rfl
  settings := by
    have hplain : '\r' ∉ (Document.sizeText size).toList := by
      simp [Document.toList_sizeText, Number.notMem_toDigits]
    have hread : Document.read goldenDirectory.room.containers (Document.sizeText size) = _ :=
      Document.read_sizeText hpos hlimit (by decide)
    exact ⟨_, settings_of_contents_eq_encodeUtf8 rfl hplain hread, rfl⟩
  expected := ⟨["golden", "a", expectedFile], none, rfl, nofun⟩

/-- A loop and the greatest size there is: the run ends well, and the check finds nothing. -/
theorem check_agrees_with_command_line_at_limit :
    SizedCase (sizedStore (Text.encodeUtf8 "[-]") (10 ^ 4300 - 1)) goldenDirectory "a"
        ["golden", "a"] (Text.encodeUtf8 "[-]") (10 ^ 4300 - 1) ∧
      1 ≤ 10 ^ 4300 - 1 ∧ Number.Writable (10 ^ 4300 - 1 : Nat) ∧
      (compileHere CommandLine.defaultLogName
        (sizedStore (Text.encodeUtf8 "[-]") (10 ^ 4300 - 1)) ["golden", "a"]
        (10 ^ 4300 - 1)).ending = .exit 0 ∧
      check (leftHere CommandLine.defaultLogName
        (sizedStore (Text.encodeUtf8 "[-]") (10 ^ 4300 - 1)) ["golden", "a"] (10 ^ 4300 - 1))
        goldenDirectory "a" = .ok none := by
  have hlimit : Number.Writable (10 ^ 4300 - 1 : Nat) := by decide +kernel
  have hpos : 1 ≤ 10 ^ 4300 - 1 := by decide +kernel
  -- From here on the size is a variable, or it would be written out in full.
  generalize 10 ^ 4300 - 1 = size at hlimit hpos
  have hcase := sizedCase_sizedStore (Text.encodeUtf8 "[-]") hpos hlimit
  have hbalanced : Brackets.Balanced (Instruction.ofBytes (Text.encodeUtf8 "[-]")) := by
    decide +kernel
  have hloops : Number.Writable
      ((Instruction.ofBytes (Text.encodeUtf8 "[-]")).count .loopStart) := by decide +kernel
  obtain ⟨text, htext⟩ :=
    (generated_generate (by omega) hlimit hloops).exists_eq_ok_iff.2 hbalanced
  obtain ⟨hexit, hcheck, -⟩ :=
    check_agrees_with_command_line CommandLine.defaultLogName hcase hpos hlimit
  have hending := hexit.2 ⟨text, hcase.actual_eq_ok_iff.2 htext⟩
  exact ⟨hcase, hpos, hlimit, hending, (hcheck hending).1⟩

end Golden

end TapeCompiler
