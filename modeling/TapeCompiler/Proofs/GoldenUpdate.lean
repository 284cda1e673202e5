/-
# Updating cases and checking them

A run that updates cases regenerates them one after the other. Each step brings its
case up to date, keeps the cases that are, and changes one file. So behind a run that
went through all cases are up to date, however often and under whichever names they
were given, and nothing but their expected files has changed. A run that finds all its
cases up to date prints one line for each and leaves the file system as it is, whether
it updates or checks.
-/

import TapeCompiler.Golden.Run
import TapeCompiler.Proofs.CaseFiles
import TapeCompiler.Proofs.CommandWords

namespace TapeCompiler

namespace Golden

variable {golden : Directory} {store : Store} {names : List String} {name : String}
  {directory : Location} {text : String}

theorem read_names (h : ∀ name ∈ names, name.toList.head? ≠ some '-') :
    interface.read ⟨[], false⟩ names = .ok ⟨names, false⟩ := by
  rw [CommandLine.Interface.read, CommandLine.Interface.sortWords_of_head?_ne h]
  simp only [bind, Except.bind]
  rw [CommandLine.Interface.takeWords_map_operand rfl rfl]
  rfl

theorem read_update_names (h : ∀ name ∈ names, name.toList.head? ≠ some '-') :
    interface.read ⟨[], false⟩ ("--update" :: names) = .ok ⟨names, true⟩ := by
  have hword : interface.sortWord "--update" = .ok (.option "--update"
      ⟨⟨["--update"], .flag fun settings => { settings with update := true }⟩, "--update",
        none⟩) := rfl
  rw [CommandLine.Interface.read, CommandLine.Interface.sortWords_cons (by decide) hword,
    CommandLine.Interface.sortWords_of_head?_ne h]
  have htake : interface.takeOption ⟨⟨["--update"], .flag fun settings =>
      { settings with update := true }⟩, "--update", none⟩ (names.map .operand) ⟨[], false⟩ =
        .ok (⟨[], true⟩, 0) := rfl
  simp only [bind, Except.bind, Except.map]
  rw [CommandLine.Interface.takeWords, htake]
  dsimp only
  rw [List.drop_zero, CommandLine.Interface.takeWords_map_operand rfl rfl]
  rfl

/-! ## Cases that are up to date -/

/-- The line that reports a case in order, or one that was regenerated. -/
def reportLine (update : Bool) (name : String) : String :=
  (if update then "Updated: " else "OK: ") ++ name

theorem linesOf_cons (line : String) (rest : List String) :
    CommandLine.linesOf (line :: rest) = line ++ "\n" ++ CommandLine.linesOf rest := by
  simp [CommandLine.linesOf]

theorem step_of_upToDate (progress : Progress) (update : Bool)
    (h : UpToDate progress.store golden name) :
    step golden update progress name = (progress.print (reportLine update name), .ok ()) := by
  cases update with
  | true => simp [step, h.regenerate_eq, reportLine]
  | false => simp [step, h.check_eq, reportLine]

/-- A run over cases that are up to date reports each of them and changes nothing. -/
theorem steps_of_upToDate (progress : Progress) (update : Bool)
    (h : ∀ name ∈ names, UpToDate progress.store golden name) :
    steps golden update progress names =
      ({ progress with
          out := progress.out ++ CommandLine.linesOf (names.map (reportLine update)) },
        .ok ()) := by
  induction names generalizing progress with
  | nil => simp [steps, CommandLine.linesOf]
  | cons name rest ih =>
    have hrest : ∀ other ∈ rest,
        UpToDate (progress.print (reportLine update name)).store golden other :=
      fun other hother => h other (List.mem_cons_of_mem _ hother)
    rw [steps, step_of_upToDate progress update (h name List.mem_cons_self)]
    dsimp only
    rw [ih _ hrest, List.map_cons, linesOf_cons]
    simp [Progress.print, String.append_assoc]

/-! ## What an update leaves -/

/-- The expected file of a case that has a directory, or the place where it will be. -/
structure ExpectedAt (store : Store) (golden : Directory) (name : String) (place : Location) :
    Prop where
  directory : ∃ directory, store.find (caseDirectory golden name) =
    .ok (directory, some .directory) ∧ place = directory ++ [expectedFile]
  locates : store.locate (caseFile golden name expectedFile) = .ok place

theorem ExpectedAt.of_directoriesIn {after : Store} {place : Location}
    (h : ExpectedAt store golden name place) (hafter : store.DirectoriesIn after) :
    ExpectedAt after golden name place := by
  obtain ⟨⟨directory, hfound, hplace⟩, hlocates⟩ := h
  exact ⟨⟨directory, hafter.find hfound, hplace⟩, hafter.locate hlocates⟩

theorem Regenerates.expectedAt (h : Regenerates store golden name directory text) :
    ExpectedAt store golden name (directory ++ [expectedFile]) :=
  ⟨⟨directory, h.found, rfl⟩, (Store.of_openForWriting_eq_ok h.opens).2.1⟩

/-- A store after some of the cases of another one were brought up to date, and nothing else. -/
structure Updated (golden : Directory) (store : Store) (names : List String) (after : Store) :
    Prop where
  upToDate : ∀ name ∈ names, UpToDate after golden name
  keeps : ∀ other, UpToDate store golden other → UpToDate after golden other
  directoriesIn : store.DirectoriesIn after
  directoriesOf : after.DirectoriesIn store
  changed : ∀ place, after.node? place ≠ store.node? place →
    (∃ bytes, after.node? place = some (.file bytes)) ∧
      ∃ name ∈ names, ExpectedAt store golden name place

namespace Updated

variable {after : Store}

theorem nil (golden : Directory) (store : Store) : Updated golden store [] store where
  upToDate := nofun
  keeps _ h := h
  directoriesIn := .refl store
  directoriesOf := .refl store
  changed _ h := absurd rfl h

/-- One regeneration more in front. -/
theorem cons (h : Regenerates store golden name directory text)
    (hrest : Updated golden (rewritten store directory text) names after) :
    Updated golden store (name :: names) after where
  upToDate := by
    intro other hother
    rcases List.mem_cons.1 hother with rfl | hother
    · -- Later steps may write this case again, under this name or another.
      exact hrest.keeps other h.upToDate_rewritten
    · exact hrest.upToDate other hother
  keeps other hother := hrest.keeps other (h.keeps_upToDate hother)
  directoriesIn := (directoriesIn_rewritten h.plain text).trans hrest.directoriesIn
  directoriesOf := hrest.directoriesOf.trans (directoriesIn_of_rewritten store directory text)
  changed := by
    intro place hplace
    by_cases hlater : after.node? place = (rewritten store directory text).node? place
    · -- No later step changed the place, so it is the one that this step wrote.
      rw [hlater, node?_rewritten] at hplace ⊢
      split at hplace
      · next hwritten =>
        subst hwritten
        exact ⟨⟨_, if_pos rfl⟩, name, List.mem_cons_self, h.expectedAt⟩
      · exact absurd rfl hplace
    · obtain ⟨hfile, other, hother, hexpected⟩ := hrest.changed place hlater
      exact ⟨hfile, other, List.mem_cons_of_mem _ hother,
        hexpected.of_directoriesIn (directoriesIn_of_rewritten store directory text)⟩

/-- A case in a directory of its own is found as it was. -/
theorem check_eq (h : Updated golden store names after) {other : String} {elsewhere : Location}
    (hother : store.find (caseDirectory golden other) = .ok (elsewhere, some .directory))
    (hapart : ∀ name ∈ names, store.locate (caseDirectory golden name) ≠ .ok elsewhere) :
    check after golden other = check store golden other := by
  refine check_congr fun file hfile => ?_
  have hplain : Store.IsFileName file := by
    simp only [List.mem_cons, List.not_mem_nil, or_false] at hfile
    rcases hfile with rfl | rfl | rfl
    · exact isFileName_settingsFile
    · exact isFileName_programFile
    · exact isFileName_expectedFile
  refine Store.find_join_congr hother (h.directoriesIn.find hother) hplain ?_
  -- A change below this directory would be to an expected file, and so in a named case.
  by_contra hchanged
  obtain ⟨-, name, hname, ⟨directory, hfound, hplace⟩, -⟩ := h.changed _ hchanged
  obtain ⟨rfl, -⟩ := List.append_inj' hplace rfl
  exact hapart name hname (Store.of_find_eq_ok hfound).2.1

end Updated

/-- A run that updates all its cases leaves the store with all of them up to date. -/
theorem updated_of_steps {progress after : Progress}
    (h : steps golden true progress names = (after, .ok ())) :
    Updated golden progress.store names after.store ∧ after.drifted = progress.drifted ∧
      after.out = progress.out ++ CommandLine.linesOf (names.map (reportLine true)) := by
  induction names generalizing progress with
  | nil =>
    cases h
    exact ⟨.nil golden _, rfl, by simp [CommandLine.linesOf]⟩
  | cons name rest ih =>
    rw [steps] at h
    cases hregenerate : regenerate progress.store golden name with
    | mk written outcome =>
      cases outcome with
      | error failure =>
        simp only [step, hregenerate, if_true] at h
        cases h
      | ok _ =>
        simp only [step, hregenerate, if_true] at h
        obtain ⟨directory, text, hregenerates, rfl⟩ :=
          exists_regenerates_of_regenerate_eq_ok hregenerate
        obtain ⟨hupdated, hdrifted, hout⟩ := ih h
        refine ⟨.cons hregenerates hupdated, hdrifted, ?_⟩
        rw [hout, List.map_cons, linesOf_cons]
        simp [Progress.print, reportLine, String.append_assoc]

/-! ## Runs over named cases -/

section Named

variable {update : Bool} {arguments : List String} {after : Progress}
variable (hread : interface.read ⟨[], false⟩ arguments = .ok ⟨names, update⟩) (hnames : names ≠ [])
include hread hnames

theorem run_of_steps_eq_ok (h : steps golden update ⟨store, "", 0⟩ names = (after, .ok ())) :
    run golden store arguments =
      ⟨.exit (if after.drifted = 0 then 0 else 1), after.out, "", after.store⟩ := by
  have hsome : names.isEmpty = false := by simpa using hnames
  simp only [run, hread, runSettings, hsome, Bool.false_eq_true, if_false, h]

theorem run_of_steps_eq_error {failure : Failure}
    (h : steps golden update ⟨store, "", 0⟩ names = (after, .error failure)) :
    run golden store arguments = ⟨.escaped failure, after.out, "", after.store⟩ := by
  have hsome : names.isEmpty = false := by simpa using hnames
  simp only [run, hread, runSettings, hsome, Bool.false_eq_true, if_false, h]

/-- A run over cases that are up to date ends well, and leaves the store as it is. -/
theorem run_of_upToDate (h : ∀ name ∈ names, UpToDate store golden name) :
    run golden store arguments =
      ⟨.exit 0, CommandLine.linesOf (names.map (reportLine update)), "", store⟩ := by
  rw [run_of_steps_eq_ok hread hnames (steps_of_upToDate ⟨store, "", 0⟩ update h)]
  simp

theorem exists_steps_of_run_eq_exit {code : Nat}
    (h : (run golden store arguments).ending = .exit code) :
    ∃ after, steps golden update ⟨store, "", 0⟩ names = (after, .ok ()) := by
  cases hsteps : steps golden update ⟨store, "", 0⟩ names with
  | mk after outcome =>
    cases outcome with
    | ok _ => exact ⟨after, rfl⟩
    | error failure =>
      rw [run_of_steps_eq_error hread hnames hsteps] at h
      cases h

end Named

/-- **Updating, then checking.** Take names of cases, at least one and none with a leading dash,
and a run that updates them and ends well. A run that checks them behind it prints one good line
for each name, in order, and ends well. A second update leaves the file system exactly as it is.
Only expected files of the named cases are new or changed behind the first update, and so the check
of a case in any other directory comes out as it did before. -/
theorem update_then_check (hnames : names ≠ [])
    (hdash : ∀ name ∈ names, name.toList.head? ≠ some '-')
    (h : (run golden store ("--update" :: names)).ending = .exit 0) :
    ∃ after, run golden store ("--update" :: names) =
        ⟨.exit 0, CommandLine.linesOf (names.map ("Updated: " ++ ·)), "", after⟩ ∧
      run golden after names =
        ⟨.exit 0, CommandLine.linesOf (names.map ("OK: " ++ ·)), "", after⟩ ∧
      run golden after ("--update" :: names) =
        ⟨.exit 0, CommandLine.linesOf (names.map ("Updated: " ++ ·)), "", after⟩ ∧
      (∀ place, after.node? place ≠ store.node? place →
        (∃ bytes, after.node? place = some (.file bytes)) ∧
          ∃ name ∈ names, store.locate (caseFile golden name expectedFile) = .ok place) ∧
      ∀ other elsewhere,
        store.find (caseDirectory golden other) = .ok (elsewhere, some .directory) →
        (∀ name ∈ names, store.locate (caseDirectory golden name) ≠ .ok elsewhere) →
        check after golden other = check store golden other := by
  obtain ⟨after, hsteps⟩ := exists_steps_of_run_eq_exit (read_update_names hdash) hnames h
  obtain ⟨hupdated, hdrifted, hout⟩ := updated_of_steps hsteps
  refine ⟨after.store, ?_, ?_, ?_, fun place hplace => ?_, fun other elsewhere => ?_⟩
  · rw [run_of_steps_eq_ok (read_update_names hdash) hnames hsteps, hdrifted, hout,
      String.empty_append]
    rfl
  · rw [run_of_upToDate (read_names hdash) hnames hupdated.upToDate]
    rfl
  · rw [run_of_upToDate (read_update_names hdash) hnames hupdated.upToDate]
    rfl
  · obtain ⟨hfile, name, hname, hexpected⟩ := hupdated.changed place hplace
    exact ⟨hfile, name, hname, hexpected.locates⟩
  · exact hupdated.check_eq

/-- A case whose expected text is out of date, and beside it a program with a bracket too many. -/
def driftedCases : Store where
  entries :=
    [(["golden"], .directory), (["golden", "a"], .directory),
     (["golden", "a", programFile], .file (Text.encodeUtf8 "[-]")),
     (["golden", "a", settingsFile], .file (Text.encodeUtf8 "\x7b\"tape_size\": 16\x7d")),
     (["golden", "a", expectedFile], .file (Text.encodeUtf8 "\r")),
     (["golden", "b"], .directory), (["golden", "b", programFile], .file (Text.encodeUtf8 "]"))]
  workingDirectory := []

/-- One case under two names, the second of which leads through the directory of another case. -/
theorem update_then_check_under_two_names :
    (run goldenDirectory driftedCases ["--update", "a", "b/../a"]).ending = .exit 0 ∧
      driftedCases.find (caseDirectory goldenDirectory "b") =
        .ok (["golden", "b"], some .directory) ∧
      ∃ after, run goldenDirectory driftedCases ["--update", "a", "b/../a"] =
          ⟨.exit 0, "Updated: a\nUpdated: b/../a\n", "", after⟩ ∧
        run goldenDirectory after ["a", "b/../a"] =
          ⟨.exit 0, "OK: a\nOK: b/../a\n", "", after⟩ ∧
        check after goldenDirectory "b" = check driftedCases goldenDirectory "b" := by
  have hending : (run goldenDirectory driftedCases ["--update", "a", "b/../a"]).ending =
      .exit 0 := by decide +kernel
  have hother : driftedCases.find (caseDirectory goldenDirectory "b") =
      .ok (["golden", "b"], some .directory) := by decide +kernel
  have hdash : ∀ name ∈ ["a", "b/../a"], name.toList.head? ≠ some '-' := by decide +kernel
  have hapart : ∀ name ∈ ["a", "b/../a"],
      driftedCases.locate (caseDirectory goldenDirectory name) ≠ .ok ["golden", "b"] := by
    decide +kernel
  obtain ⟨after, hupdate, hcheck, -, -, hkept⟩ := update_then_check (by decide) hdash hending
  exact ⟨hending, hother, after, hupdate, hcheck, hkept "b" _ hother hapart⟩

end Golden

end TapeCompiler
