/-
# Updates that fail

To regenerate a case is to compile it and then to write its expected file. The whole text is
there before anything is written, and the directory of the case is there too, since the program
was read from it: so no directory is made, and opening the file is all that can still fail. A
case that cannot be regenerated therefore leaves the store exactly as it was.

A run that updates cases stops at the first that cannot be regenerated. What it leaves is the
store that the cases before it leave, each regenerated in the store behind the one before.
-/

import TapeCompiler.Proofs.CaseListing
import TapeCompiler.Proofs.GoldenUpdate

namespace TapeCompiler

namespace Golden

variable {golden : Directory} {store after : Store} {name : String} {names : List String}
  {failure : Failure} {progress stopped : Progress}

/-! ## One case -/

/-- A case cannot be regenerated if it does not compile or its expected file cannot be opened.
There is no other reason, and the store stays as it is. -/
theorem regenerate_eq_error_iff :
    regenerate store golden name = (after, .error failure) ↔
      after = store ∧ (actual store golden name = .error failure ∨
        ∃ text error, actual store golden name = .ok text ∧
          store.openForWriting (caseFile golden name expectedFile) = .error error ∧
          failure = .file (.ofAccess (caseFile golden name expectedFile) error)) := by
  rw [regenerate]
  cases hactual : actual store golden name with
  | error reason => simp [Prod.ext_iff, eq_comm]
  | ok text =>
    obtain ⟨directory, hfound, -⟩ := exists_directory_of_actual_eq_ok hactual
    dsimp only
    rw [write_caseFile_of_find hfound]
    cases hopen : store.openForWriting (caseFile golden name expectedFile) with
    | error error => simp [Prod.ext_iff, eq_comm]
    | ok place => simp

/-! ## A run over cases -/

/-- The store that remains when cases are regenerated one after the other, none of which
fails. -/
inductive RegeneratedInTurn (golden : Directory) : Store → List String → Store → Prop
  | nil (store : Store) : RegeneratedInTurn golden store [] store
  | cons {store middle after : Store} {name : String} {rest : List String}
    (first : regenerate store golden name = (middle, .ok ()))
    (others : RegeneratedInTurn golden middle rest after) :
    RegeneratedInTurn golden store (name :: rest) after

/-- A run that updates cases and fails has gone through the cases before the one that fails, and
has reported each of them. -/
theorem exists_regeneratedInTurn_of_steps_eq_error
    (h : steps golden true progress names = (stopped, .error failure)) :
    ∃ done name rest, names = done ++ name :: rest ∧
      RegeneratedInTurn golden progress.store done stopped.store ∧
      regenerate stopped.store golden name = (stopped.store, .error failure) ∧
      stopped.out = progress.out ++ CommandLine.linesOf (done.map (reportLine true)) := by
  induction names generalizing progress with
  | nil => cases h
  | cons name rest ih =>
    rw [steps] at h
    cases hregenerate : regenerate progress.store golden name with
    | mk written outcome =>
      cases outcome with
      | error reason =>
        -- The run stops here, and the case has left no trace.
        obtain rfl := (regenerate_eq_error_iff.1 hregenerate).1
        simp only [step, hregenerate, if_true] at h
        cases h
        exact ⟨[], name, rest, rfl, .nil _, hregenerate, by simp [CommandLine.linesOf]⟩
      | ok _ =>
        simp only [step, hregenerate, if_true] at h
        obtain ⟨done, last, behind, rfl, hdone, hlast, hout⟩ := ih h
        refine ⟨name :: done, last, behind, rfl, .cons hregenerate hdone, hlast, ?_⟩
        rw [hout, List.map_cons, linesOf_cons]
        simp [Progress.print, reportLine, String.append_assoc]

/-- Either a run has cases to go through, or the list of all cases cannot be had. -/
theorem exists_goesThrough_or (store : Store) (golden : Directory) (given : List String) :
    (∃ names, GoesThrough store golden given names) ∨
      given = [] ∧ ∃ failure, caseNames store golden = .error failure := by
  by_cases hgiven : given = []
  · cases hnames : caseNames store golden with
    | error failure => exact .inr ⟨hgiven, failure, rfl⟩
    | ok names => exact .inl ⟨names, by rwa [GoesThrough, if_pos hgiven]⟩
  · exact .inl ⟨given, by rw [GoesThrough, if_neg hgiven]⟩

theorem run_of_caseNames_eq_error {arguments : List String} {update : Bool}
    (hread : interface.read ⟨[], false⟩ arguments = .ok ⟨[], update⟩)
    (h : caseNames store golden = .error failure) :
    run golden store arguments = ⟨.escaped failure, "", "", store⟩ := by
  rw [run, hread]
  dsimp only
  rw [runSettings, if_pos (by rfl), h]

/-- **A failed update leaves no half-done case.** If a case cannot be regenerated, the store is
exactly as it was. If a run that updates cases ends in a failure, then either the failure is that
of a case it goes through: the cases before it can all be regenerated in turn, they have been
reported, and the store is exactly the one that this leaves. Or the run was given no names and
could not list the cases: then the store is as it was. -/
theorem update_all_or_nothing (store : Store) (golden : Directory) :
    (∀ name after failure, regenerate store golden name = (after, .error failure) →
      after = store) ∧
    ∀ arguments given failure, interface.read ⟨[], false⟩ arguments = .ok ⟨given, true⟩ →
      (run golden store arguments).ending = .escaped failure →
      (∃ done name rest after, GoesThrough store golden given (done ++ name :: rest) ∧
        RegeneratedInTurn golden store done after ∧
        regenerate after golden name = (after, .error failure) ∧
        run golden store arguments =
          ⟨.escaped failure, CommandLine.linesOf (done.map ("Updated: " ++ ·)), "", after⟩) ∨
      (given = [] ∧ caseNames store golden = .error failure ∧
        run golden store arguments = ⟨.escaped failure, "", "", store⟩) := by
  refine ⟨fun name after failure h => (regenerate_eq_error_iff.1 h).1, ?_⟩
  intro arguments given failure hread hending
  rcases exists_goesThrough_or store golden given with ⟨names, hnames⟩ | ⟨rfl, reason, hreason⟩
  · have hrun := run_eq_of_goesThrough hread hnames
    cases hsteps : steps golden true ⟨store, "", 0⟩ names with
    | mk stopped outcome =>
      rw [hsteps] at hrun
      cases outcome with
      | ok _ =>
        rw [hrun] at hending
        cases hending
      | error reason =>
        rw [hrun] at hending
        cases hending
        obtain ⟨done, name, rest, rfl, hdone, hfails, hout⟩ :=
          exists_regeneratedInTurn_of_steps_eq_error hsteps
        refine .inl ⟨done, name, rest, stopped.store, hnames, hdone, hfails, ?_⟩
        dsimp only at hrun hout
        rw [hrun, hout, String.empty_append]
        rfl
  · have hrun := run_of_caseNames_eq_error hread hreason
    rw [hrun] at hending
    cases hending
    exact .inr ⟨rfl, hreason, hrun⟩

/-- The second of two cases has a bracket too many, so the run leaves what the first one leaves. -/
theorem update_all_or_nothing_second_of_two :
    interface.read ⟨[], false⟩ ["--update", "a", "b"] = .ok ⟨["a", "b"], true⟩ ∧
      (run goldenDirectory driftedCases ["--update", "a", "b"]).ending =
        .escaped (.emit (.loops (.unmatchedEnd 0))) ∧
      ∃ after, regenerate driftedCases goldenDirectory "a" = (after, .ok ()) ∧
        after ≠ driftedCases ∧
        regenerate after goldenDirectory "b" =
          (after, .error (.emit (.loops (.unmatchedEnd 0)))) ∧
        run goldenDirectory driftedCases ["--update", "a", "b"] =
          ⟨.escaped (.emit (.loops (.unmatchedEnd 0))), "Updated: a\n", "", after⟩ := by
  have hread : interface.read ⟨[], false⟩ ["--update", "a", "b"] = .ok ⟨["a", "b"], true⟩ :=
    read_update_names (by decide +kernel)
  have hending : (run goldenDirectory driftedCases ["--update", "a", "b"]).ending =
      .escaped (.emit (.loops (.unmatchedEnd 0))) := by decide +kernel
  refine ⟨hread, hending, ?_⟩
  have hfirst : (regenerate driftedCases goldenDirectory "a").2 = .ok () := by decide +kernel
  have hchanged : (regenerate driftedCases goldenDirectory "a").1 ≠ driftedCases := by
    decide +kernel
  obtain ⟨-, hrun⟩ := update_all_or_nothing driftedCases goldenDirectory
  obtain ⟨done, name, rest, after, hnames, hdone, hfails, hreport⟩ | ⟨hnone, -⟩ :=
    hrun _ _ _ hread hending
  · rw [GoesThrough, if_neg (by decide)] at hnames
    -- The first case does not fail, and so it is not the one the run stopped at.
    cases hdone with
    | nil =>
      obtain ⟨rfl, -⟩ := List.cons.inj hnames
      rw [hfails] at hfirst
      cases hfirst
    | cons hregenerated hothers =>
      obtain ⟨rfl, hrest⟩ := List.cons.inj hnames
      cases hothers with
      | nil =>
        obtain ⟨rfl, -⟩ := List.cons.inj hrest
        rw [hregenerated] at hchanged
        exact ⟨after, hregenerated, hchanged, hfails, hreport⟩
      | cons => simp at hrest
  · cases hnone

end Golden

end TapeCompiler
