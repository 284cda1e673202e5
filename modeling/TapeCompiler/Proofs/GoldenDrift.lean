/-
# Drift is reported

The check of a case compares two texts: the one the case compiles to, and the one its expected
file holds with all line ends made alike. Where they differ it gives their diff. A diff that
came out empty would pass for a case in order, and none does: the lines of two different texts
differ, and a diff without hunks would patch the one list of lines into the other by changing
nothing. So a run that checks cases reports exactly those that drifted.
-/

import TapeCompiler.Proofs.CaseListing
import TapeCompiler.Proofs.DiffPatch
import TapeCompiler.Proofs.GoldenUpdate

namespace TapeCompiler

/-! ## Line ends -/

namespace Text

/-- Characters and the same characters with line ends made alike: every carriage return before a
line feed is dropped, and every other one becomes a line feed. -/
inductive Unifies : List Char → List Char → Prop
  | nil : Unifies [] []
  | pair {chars out : List Char} (rest : Unifies chars out) :
    Unifies ('\r' :: '\n' :: chars) ('\n' :: out)
  | lone {chars out : List Char} (last : chars.head? ≠ some '\n') (rest : Unifies chars out) :
    Unifies ('\r' :: chars) ('\n' :: out)
  | other {c : Char} {chars out : List Char} (plain : c ≠ '\r') (rest : Unifies chars out) :
    Unifies (c :: chars) (c :: out)

theorem Unifies.unifyFrom_eq {chars out : List Char} (h : Unifies chars out) (done : List Char) :
    unifyFrom done chars = done.reverse ++ out := by
  induction h generalizing done with
  | nil => rw [unifyFrom, List.append_nil]
  | pair _ ih => rw [unifyFrom, ih, List.reverse_cons, List.append_assoc, List.singleton_append]
  | lone last _ ih =>
    rw [unifyFrom, ih, List.reverse_cons, List.append_assoc, List.singleton_append]
    rintro rest rfl
    exact last rfl
  | other plain _ ih =>
    rw [unifyFrom, ih, List.reverse_cons, List.append_assoc, List.singleton_append]
    · exact fun _ hreturn _ => plain hreturn
    · exact plain

theorem exists_unifies (done chars : List Char) : ∃ out, Unifies chars out := by
  fun_induction unifyFrom done chars with
  | case1 => exact ⟨[], .nil⟩
  | case2 _ rest ih =>
    obtain ⟨out, hout⟩ := ih
    exact ⟨'\n' :: out, .pair hout⟩
  | case3 _ rest hlast ih =>
    obtain ⟨out, hout⟩ := ih
    refine ⟨'\n' :: out, .lone (fun hhead => ?_) hout⟩
    obtain ⟨others, rfl⟩ := List.head?_eq_some_iff.1 hhead
    exact hlast others rfl
  | case4 _ c rest _ hplain ih =>
    obtain ⟨out, hout⟩ := ih
    exact ⟨c :: out, .other hplain hout⟩

/-- Reading a text makes its line ends alike. -/
theorem unifyLineEnds_eq_iff {text other : String} :
    unifyLineEnds text = other ↔ Unifies text.toList other.toList := by
  obtain ⟨out, hout⟩ := exists_unifies [] text.toList
  have hunify : unifyLineEnds text = String.ofList out := by
    rw [unifyLineEnds, hout.unifyFrom_eq, List.reverse_nil, List.nil_append]
  constructor
  · rintro rfl
    rwa [hunify, String.toList_ofList]
  · intro hother
    have hsame := (hother.unifyFrom_eq []).symm.trans (hout.unifyFrom_eq [])
    rw [hunify, ← List.append_cancel_left hsame, String.ofList_toList]

end Text

/-! ## Diffs of different lists -/

namespace Diff

/-- The diff of two lists that differ starts with the name of the first. -/
theorem exists_unified_eq_cons {left right : List String} (h : left ≠ right)
    (leftName rightName : String) :
    ∃ rest, unified leftName rightName left right = ("--- " ++ leftName ++ "\n") :: rest := by
  rw [unified_eq_writtenDiff]
  cases hhunks : diffHunks left right with
  | nil =>
    -- A patch without hunks changes nothing.
    have hpatch := patchFrom_diffHunks left right
    rw [hhunks] at hpatch
    exact absurd hpatch h
  | cons hunk rest => exact ⟨_, rfl⟩

end Diff

namespace Golden

variable {store : Store} {golden : Directory} {name : String} {names : List String}

/-- The drift from one text to another is shown, and not by an empty text. -/
theorem exists_drift_eq {expected compiled : String} (h : expected ≠ compiled) (name : String) :
    ∃ rest, drift name expected compiled = "--- " ++ name ++ "/program.asm\n" ++ rest := by
  have hlines : Text.splitLines expected ≠ Text.splitLines compiled := by
    intro hsame
    apply h
    rw [← Text.join_splitLines expected, hsame, Text.join_splitLines]
  obtain ⟨rest, hrest⟩ :=
    Diff.exists_unified_eq_cons hlines (name ++ "/program.asm") (name ++ "/actual.asm")
  refine ⟨String.join rest, ?_⟩
  rw [drift, hrest, String.join_cons]
  simp only [String.append_assoc]
  rfl

/-! ## The check of a case -/

/-- The two texts that the check of a case compares: the one that its program compiles to, for the
size in its settings, and the one that its expected file holds. -/
structure Compares (store : Store) (golden : Directory) (name expected compiled : String) :
    Prop where
  compiles : ∃ document size program, settings store golden name = .ok document ∧
    tapeSize document = .ok size ∧
    store.contents (caseFile golden name programFile) = .ok program ∧
    generate (Instruction.ofBytes program) (.int size) = .ok compiled
  holds : ∃ bytes, store.contents (caseFile golden name expectedFile) = .ok bytes ∧
    Text.decodeUtf8 bytes = .ok expected

/-- A case whose expected text is the one it compiles to, but for line ends. -/
def InStep (store : Store) (golden : Directory) (name : String) : Prop :=
  ∃ expected compiled, Compares store golden name expected compiled ∧
    Text.Unifies expected.toList compiled.toList

theorem Compares.eq {expected compiled other second : String}
    (h : Compares store golden name expected compiled)
    (h' : Compares store golden name other second) : expected = other ∧ compiled = second := by
  obtain ⟨⟨document, size, program, hdocument, hsize, hprogram, hcompiled⟩, bytes, hbytes,
    hexpected⟩ := h
  obtain ⟨⟨document', size', program', hdocument', hsize', hprogram', hsecond⟩, bytes', hbytes',
    hother⟩ := h'
  obtain rfl := Except.ok.inj (hdocument.symm.trans hdocument')
  obtain rfl := Except.ok.inj (hsize.symm.trans hsize')
  obtain rfl := Except.ok.inj (hprogram.symm.trans hprogram')
  obtain rfl := Except.ok.inj (hbytes.symm.trans hbytes')
  exact ⟨Except.ok.inj (hexpected.symm.trans hother), Except.ok.inj (hcompiled.symm.trans hsecond)⟩

/-- The check of a case that compiles and has an expected text compares the two. -/
theorem check_eq_of_actual_eq_ok {expected compiled : String}
    (hactual : actual store golden name = .ok compiled)
    (hread : TextFile.read store (caseFile golden name expectedFile) = .ok expected) :
    check store golden name =
      .ok (if compiled = expected then none else some (drift name expected compiled)) := by
  simp only [check, hactual, bind, Except.bind, hread]
  rfl

/-- A check that does not fail compares two texts, and gives nothing exactly if they agree. -/
theorem exists_compares_of_check_eq_ok {outcome : Option String}
    (h : check store golden name = .ok outcome) :
    ∃ expected compiled, Compares store golden name expected compiled ∧
      outcome = if compiled = Text.unifyLineEnds expected then none
        else some (drift name (Text.unifyLineEnds expected) compiled) := by
  obtain ⟨compiled, hactual, h⟩ := exists_of_bind_eq_ok h
  have hcompiles := exists_of_actual_eq_ok hactual
  unfold TextFile.read at h
  cases hbytes : store.contents (caseFile golden name expectedFile) with
  | error error =>
    rw [hbytes] at h
    cases h
  | ok bytes =>
    rw [hbytes] at h
    dsimp only at h
    cases hdecode : Text.decodeUtf8 bytes with
    | error error =>
      rw [hdecode] at h
      cases h
    | ok expected =>
      rw [hdecode] at h
      exact ⟨expected, compiled, ⟨hcompiles, bytes, hbytes, hdecode⟩, (Except.ok.inj h).symm⟩

/-- The check gives nothing exactly for a case in step, and otherwise a text that starts with the
name of the expected file. -/
theorem verdict_of_check_eq_ok {outcome : Option String}
    (h : check store golden name = .ok outcome) :
    (outcome = none ↔ InStep store golden name) ∧
      ∀ diff, outcome = some diff → ∃ rest, diff = "--- " ++ name ++ "/program.asm\n" ++ rest := by
  obtain ⟨expected, compiled, hcompares, rfl⟩ := exists_compares_of_check_eq_ok h
  by_cases hsame : compiled = Text.unifyLineEnds expected
  · rw [if_pos hsame]
    refine ⟨iff_of_true rfl ⟨expected, compiled, hcompares, ?_⟩, nofun⟩
    exact Text.unifyLineEnds_eq_iff.1 hsame.symm
  · rw [if_neg hsame]
    refine ⟨iff_of_false nofun ?_, fun diff hdiff => ?_⟩
    · rintro ⟨other, second, hother, hunifies⟩
      obtain ⟨rfl, rfl⟩ := hcompares.eq hother
      exact hsame (Text.unifyLineEnds_eq_iff.2 hunifies).symm
    · rw [← Option.some.inj hdiff]
      exact exists_drift_eq (Ne.symm hsame) name

theorem ne_empty_of_check_eq_ok {diff : String}
    (h : check store golden name = .ok (some diff)) : diff ≠ "" := by
  obtain ⟨rest, rfl⟩ := (verdict_of_check_eq_ok h).2 diff rfl
  simp

/-! ## A run that checks cases -/

/-- What a run prints for a case: its diff, or that it is in order. -/
def reportFor (name : String) (outcome : Option String) : String := outcome.getD ("OK: " ++ name)

/-- No diff reads like a case in order. -/
theorem reportFor_eq_iff {outcome : Option String} (h : check store golden name = .ok outcome) :
    reportFor name outcome = "OK: " ++ name ↔ InStep store golden name := by
  obtain ⟨hnone, hdiff⟩ := verdict_of_check_eq_ok h
  rw [← hnone]
  cases outcome with
  | none => exact iff_of_true rfl rfl
  | some diff =>
    refine iff_of_false (fun hreport => ?_) nofun
    obtain ⟨rest, rfl⟩ := hdiff diff rfl
    have hchars := congrArg String.toList hreport
    simp [reportFor] at hchars

theorem step_of_check_eq_ok {progress : Progress} {outcome : Option String}
    (h : check progress.store golden name = .ok outcome) :
    step golden false progress name =
      ({ progress with drifted := progress.drifted + if outcome.isSome then 1 else 0 }.print
        (reportFor name outcome), .ok ()) := by
  rw [step, if_neg (by decide), h]
  cases outcome with
  | none => rfl
  | some diff =>
    have hsome : diff.isEmpty = false := by simpa using ne_empty_of_check_eq_ok h
    simp [hsome, reportFor]

/-- A run over cases whose checks do not fail prints one report for each and counts those that
drifted. -/
theorem steps_of_check_eq_ok {progress : Progress} {outcome : String → Option String}
    (h : ∀ name ∈ names, check progress.store golden name = .ok (outcome name)) :
    steps golden false progress names =
      ({ progress with
          out := progress.out ++
            CommandLine.linesOf (names.map fun name => reportFor name (outcome name))
          drifted := progress.drifted + names.countP fun name => (outcome name).isSome },
        .ok ()) := by
  induction names generalizing progress with
  | nil => simp [steps, CommandLine.linesOf]
  | cons name rest ih =>
    obtain ⟨hname, hrest⟩ := List.forall_mem_cons.1 h
    rw [steps, step_of_check_eq_ok hname]
    dsimp only [Progress.print]
    rw [ih (by exact hrest), List.map_cons, linesOf_cons, List.countP_cons]
    simp only [String.append_assoc, Nat.add_assoc, Nat.add_comm]

/-- The number of cases that drifted is zero exactly if all are in step. -/
theorem countP_eq_zero_iff {outcome : String → Option String}
    (h : ∀ name ∈ names, check store golden name = .ok (outcome name)) :
    (names.countP fun name => (outcome name).isSome) = 0 ↔
      ∀ name ∈ names, InStep store golden name := by
  rw [List.countP_eq_zero]
  refine forall₂_congr fun name hname => ?_
  rw [← (verdict_of_check_eq_ok (h name hname)).1, Option.not_isSome_iff_eq_none]

theorem run_of_check_eq_ok {given arguments : List String} {outcome : String → Option String}
    (hread : interface.read ⟨[], false⟩ arguments = .ok ⟨given, false⟩)
    (hnames : GoesThrough store golden given names)
    (h : ∀ name ∈ names, check store golden name = .ok (outcome name)) :
    run golden store arguments =
      ⟨.exit (if (names.countP fun name => (outcome name).isSome) = 0 then 0 else 1),
        CommandLine.linesOf (names.map fun name => reportFor name (outcome name)), "", store⟩ := by
  have hsteps : steps golden false ⟨store, "", 0⟩ names = _ := steps_of_check_eq_ok h
  rw [run_eq_of_goesThrough hread hnames, hsteps]
  dsimp only
  rw [String.empty_append, Nat.zero_add]

/-- **Drift is reported, and nothing else.** Where the check of a case does not fail, it gives
nothing exactly if the UTF-8 text of the expected file, with every carriage return before a line
feed dropped and every other one turned into a line feed, is the text generated from the program of
the case for the size in its settings; else it gives a text that is not empty. Without names a run
takes the list of all cases. A run that checks cases, where no check fails, prints one report for
each: that the case is in order exactly if it is in step, and otherwise the diff its check gives. It
leaves the store as it is, and ends with one exactly if a case is out of step, and with zero
otherwise. -/
theorem check_reports_drift (store : Store) (golden : Directory) :
    (∀ name outcome, check store golden name = .ok outcome →
      (outcome = none ↔ InStep store golden name) ∧ ∀ diff, outcome = some diff → diff ≠ "") ∧
    (∀ names, caseNames store golden = .ok names → IsListing store golden names) ∧
    ∀ arguments given names, interface.read ⟨[], false⟩ arguments = .ok ⟨given, false⟩ →
      GoesThrough store golden given names →
      (∀ name ∈ names, ∃ outcome, check store golden name = .ok outcome) →
      ∃ (report : String → String) (code : Nat),
        run golden store arguments =
          ⟨.exit code, CommandLine.linesOf (names.map report), "", store⟩ ∧
        (∀ name ∈ names, (report name = "OK: " ++ name ↔ InStep store golden name) ∧
          (¬ InStep store golden name → check store golden name = .ok (some (report name)))) ∧
        (code = 1 ↔ ∃ name ∈ names, ¬ InStep store golden name) ∧
        (code = 0 ↔ ∀ name ∈ names, InStep store golden name) := by
  refine ⟨fun name outcome h => ⟨(verdict_of_check_eq_ok h).1, ?_⟩,
    fun names h => isListing_of_caseNames_eq_ok h, ?_⟩
  · rintro diff rfl
    exact ne_empty_of_check_eq_ok h
  · intro arguments given names hread hnames hchecks
    choose! outcome houtcome using hchecks
    refine ⟨_, _, run_of_check_eq_ok hread hnames houtcome, fun name hname => ?_, ?_, ?_⟩
    · have hname := houtcome name hname
      refine ⟨reportFor_eq_iff hname, fun hdrift => ?_⟩
      rw [← (verdict_of_check_eq_ok hname).1, ← ne_eq, Option.ne_none_iff_exists'] at hdrift
      obtain ⟨diff, hdiff⟩ := hdrift
      rw [hname, hdiff]
      rfl
    · simp [countP_eq_zero_iff houtcome]
    · simp [countP_eq_zero_iff houtcome]

/-- Two cases and a directory without a program. The first is in step but for its line ends, the
second has drifted. -/
def mixedCases : Store where
  entries :=
    [(["golden"], .directory), (["golden", "a"], .directory),
     (["golden", "a", programFile], .file []),
     (["golden", "a", settingsFile], .file (Text.encodeUtf8 "\x7b\"tape_size\": 16\x7d")),
     (["golden", "a", expectedFile], .file (Text.encodeUtf8 ("section .bss\r\n" ++
        "  tape_ptr RESQ 1\r  tape RESB 16\nsection .text\r\n  global _start\r\n" ++
        "_start:\r\n  mov EAX, tape+8\r\n"))),
     (["golden", "b"], .directory),
     (["golden", "b", programFile], .file (Text.encodeUtf8 "+")),
     (["golden", "b", expectedFile], .file (Text.encodeUtf8 "-")),
     (["golden", "c"], .directory)]
  workingDirectory := []

/-- A run without names reports the first case in order and shows the diff of the second. -/
theorem check_reports_drift_mixed :
    interface.read ⟨[], false⟩ [] = .ok ⟨[], false⟩ ∧
      GoesThrough mixedCases goldenDirectory [] ["a", "b"] ∧
      ∃ diff, diff ≠ "" ∧ run goldenDirectory mixedCases [] =
        ⟨.exit 1, CommandLine.linesOf ["OK: a", diff], "", mixedCases⟩ := by
  have hread : interface.read ⟨[], false⟩ [] = .ok ⟨[], false⟩ := read_names nofun
  have hnames : GoesThrough mixedCases goldenDirectory [] ["a", "b"] := by
    have hlist : mixedCases.list goldenDirectory.path = .ok ["a", "b", "c"] := by decide +kernel
    have hcases : ["a", "b", "c"].filterM (isCase mixedCases goldenDirectory) =
        .ok ["a", "b"] := by decide +kernel
    rw [GoesThrough, if_pos rfl, caseNames, hlist]
    dsimp only
    rw [hcases]
    dsimp only
    rw [List.mergeSort_of_pairwise (by decide +kernel)]
  have hfirst : check mixedCases goldenDirectory "a" = .ok none := by decide +kernel
  -- The diff itself is not computed: it is enough that the two texts differ.
  have hsecond : ∃ diff, check mixedCases goldenDirectory "b" = .ok (some diff) := by
    have hactual : actual mixedCases goldenDirectory "b" = .ok (CommandLine.linesOf
        ["section .bss", "  tape_ptr RESQ 1", "  tape RESB 1048576", "section .text",
         "  global _start", "_start:", "  mov EAX, tape+524288", "  inc BYTE [EAX]"]) := by
      decide +kernel
    have hexpected : TextFile.read mixedCases (caseFile goldenDirectory "b" expectedFile) =
        .ok "-" := by decide +kernel
    rw [check_eq_of_actual_eq_ok hactual hexpected, if_neg (by decide +kernel)]
    exact ⟨_, rfl⟩
  obtain ⟨diff, hdiff⟩ := hsecond
  obtain ⟨hcheck, -, hrun⟩ := check_reports_drift mixedCases goldenDirectory
  have ha : InStep mixedCases goldenDirectory "a" := (hcheck "a" none hfirst).1.1 rfl
  have hb : ¬ InStep mixedCases goldenDirectory "b" := by
    rw [← (hcheck "b" _ hdiff).1]
    exact nofun
  obtain ⟨report, code, hreport, hlines, hone, -⟩ := hrun [] [] ["a", "b"] hread hnames (by
    intro name hname
    simp only [List.mem_cons, List.not_mem_nil, or_false] at hname
    rcases hname with rfl | rfl
    · exact ⟨none, hfirst⟩
    · exact ⟨some diff, hdiff⟩)
  obtain rfl := hone.2 ⟨"b", by simp, hb⟩
  have hreported := (hlines "b" (by simp)).2 hb
  rw [hdiff] at hreported
  obtain rfl := Option.some.inj (Except.ok.inj hreported)
  refine ⟨hread, hnames, report "b", (hcheck "b" _ hdiff).2 _ rfl, ?_⟩
  rw [hreport, List.map_cons, (hlines "a" (by simp)).1.2 ha]
  rfl

end Golden

end TapeCompiler
