/-
# What becomes of the source file

A run that is given no output file derives one from the source file, by putting the
suffix of assembly in place of its own. The two are different files unless the source
has that suffix already: the last name on the way is different, and the way to it is
the same. So a run keeps its source file, except one with the suffix of assembly, which
it reads and then writes over.
-/

import TapeCompiler.Proofs.FileOutput
import TapeCompiler.Proofs.TextAsSource

namespace TapeCompiler

/-! ## Paths with the extension they have -/

namespace Path

variable {path renamed : Path} {extension : String}

theorem parts_eq_dropLast_concat_name (h : path.name ≠ "") :
    path.parts = path.parts.dropLast ++ [path.name] := by
  cases hlast : path.parts.getLast? with
  | none => simp [name, hlast] at h
  | some last =>
    have hname : path.name = last := by simp [name, hlast]
    obtain ⟨front, hfront⟩ := List.getLast?_eq_some_iff.1 hlast
    rw [hname, hfront, List.dropLast_concat]

/-- Putting on the extension that a path has gives the path back, and no other extension does. -/
theorem withExtension_eq_self_iff (h : IsExtension extension) :
    path.withExtension extension = .ok path ↔ path.suffix = "." ++ extension := by
  by_cases hname : path.name = ""
  · rw [withExtension_of_name_eq_empty h hname, suffix, hname]
    refine ⟨nofun, fun hsuffix => ?_⟩
    have hlist := congrArg String.toList hsuffix
    simp [splitSuffix] at hlist
  · have hparts := parts_eq_dropLast_concat_name hname
    have hsplit := splitSuffix_append path.name.toList
    rw [withExtension_of_name_ne_empty h hname, suffix]
    constructor
    · intro hself
      have hlast := congrArg Path.parts (Except.ok.inj hself)
      dsimp only at hlast
      rw [hparts] at hlast
      simp only [List.dropLast_concat, List.append_cancel_left_eq, List.cons.injEq,
        and_true] at hlast
      have hchars := congrArg String.toList hlast
      rw [String.toList_ofList] at hchars
      nth_rewrite 2 [← hsplit] at hchars
      rw [← List.append_cancel_left hchars]
      simp
    · intro hsuffix
      have hchars := congrArg String.toList hsuffix
      rw [String.toList_ofList, String.toList_append] at hchars
      have hrenamed : String.ofList ((splitSuffix path.name.toList).1 ++ '.' :: extension.toList) =
          path.name := by
        rw [show '.' :: extension.toList = ".".toList ++ extension.toList from rfl, ← hchars,
          hsplit, String.ofList_toList]
      rw [hrenamed, ← hparts]

/-- A new extension changes the last part only, and never into two dots. -/
theorem exists_of_withExtension_eq_ok (h : IsExtension extension) (hdot : '.' ∉ extension.toList)
    (hrenamed : path.withExtension extension = .ok renamed) :
    ∃ last, last ≠ ".." ∧ path.parts = path.parts.dropLast ++ [path.name] ∧
      renamed = { path with parts := path.parts.dropLast ++ [last] } := by
  by_cases hname : path.name = ""
  · rw [withExtension_of_name_eq_empty h hname] at hrenamed
    cases hrenamed
  · rw [withExtension_of_name_ne_empty h hname] at hrenamed
    refine ⟨_, fun hdots => ?_, parts_eq_dropLast_concat_name hname, (Except.ok.inj hrenamed).symm⟩
    have hchars := congrArg String.toList hdots
    rw [String.toList_ofList] at hchars
    -- The extension has a character, and all characters of two dots are dots.
    cases hextension : extension.toList with
    | nil => exact h.1 (String.toList_eq_nil_iff.1 hextension)
    | cons c rest =>
      have hmem : c ∈ "..".toList := by
        rw [← hchars, hextension]
        simp
      have hc : c = '.' := by simpa using hmem
      rw [hextension, hc] at hdot
      exact hdot List.mem_cons_self

end Path

/-! ## Two places in one directory -/

namespace Store

variable {store : Store} {path renamed : Path} {place location base : Location}
  {bytes : List UInt8} {extension : String}

theorem eq_of_enter_eq_ok {part : String} (h : store.enter base part = .ok place) :
    place = if part = ".." then base.dropLast else base ++ [part] := by
  unfold enter at h
  split at h
  · cases h
  · cases h
  · split at h
    · next hdots =>
      cases h
      rw [if_pos hdots]
    · next hdots =>
      rw [if_neg hdots]
      split at h <;> cases h
      rfl

theorem exists_enter_of_locate_eq_ok {root : Root} {parts : List String} {last : String}
    (h : store.locate ⟨root, parts ++ [last]⟩ = .ok place) :
    ∃ base, parts.foldlM store.enter (match root with
        | .relative => store.workingDirectory
        | _ => []) = .ok base ∧ store.enter base last = .ok place := by
  unfold locate at h
  split at h
  · cases h
  · simp only [List.foldlM_append, List.foldlM_cons, List.foldlM_nil, bind_pure] at h
    exact exists_of_bind_eq_ok h

/-- A path with a new extension leads to another place. -/
theorem place_ne_of_withExtension (h : Path.IsExtension extension) (hdot : '.' ∉ extension.toList)
    (hrenamed : path.withExtension extension = .ok renamed) (hne : renamed ≠ path)
    (hplace : store.locate path = .ok place) (hlocation : store.locate renamed = .ok location) :
    place ≠ location := by
  obtain ⟨last, hlast, hparts, rfl⟩ := Path.exists_of_withExtension_eq_ok h hdot hrenamed
  have hpath : path = ⟨path.root, path.parts.dropLast ++ [path.name]⟩ := by rw [← hparts]
  rw [hpath] at hplace
  obtain ⟨base, hbase, henter⟩ := exists_enter_of_locate_eq_ok hplace
  obtain ⟨base', hbase', henter'⟩ := exists_enter_of_locate_eq_ok hlocation
  obtain rfl : base = base' := Except.ok.inj (hbase.symm.trans hbase')
  rw [eq_of_enter_eq_ok henter, eq_of_enter_eq_ok henter', if_neg hlast]
  intro heq
  split at heq
  · have hlength := congrArg List.length heq
    simp only [List.length_dropLast, List.length_append, List.length_singleton] at hlength
    omega
  · have hname : path.name = last := by simpa using heq
    rw [← hname] at hne
    exact hne hpath.symm

theorem contents_eq_ok_iff : store.contents path = .ok bytes ↔
    path.hasNul = false ∧ ∃ place, store.locate path = .ok place ∧
      store.node? place = some (.file bytes) := by
  constructor
  · intro h
    obtain ⟨⟨place, found⟩, hfind, h⟩ := exists_of_bind_eq_ok h
    obtain ⟨hclean, hlocate, hnode⟩ := of_find_eq_ok hfind
    refine ⟨hclean, place, hlocate, ?_⟩
    rcases found with _ | _ | _
    · cases h
    · cases h
    · cases h
      exact hnode
  · rintro ⟨hclean, place, hlocate, hnode⟩
    rw [contents, find, if_neg (Bool.not_eq_true _ ▸ hclean), hlocate]
    simp [hnode, bind, Except.bind, pure, Except.pure]

/-- A file that can be read opens for writing. -/
theorem openForWriting_of_contents_eq_ok (h : store.contents path = .ok bytes) :
    ∃ location, store.openForWriting path = .ok location := by
  obtain ⟨hclean, place, hlocate, hnode⟩ := contents_eq_ok_iff.1 h
  refine ⟨place, ?_⟩
  rw [openForWriting, find, if_neg (Bool.not_eq_true _ ▸ hclean), hlocate]
  simp [hnode, bind, Except.bind, pure, Except.pure]

/-- A file keeps its bytes when another one is written. -/
theorem contents_set_of_withExtension (h : Path.IsExtension extension)
    (hdot : '.' ∉ extension.toList) (hrenamed : path.withExtension extension = .ok renamed)
    (hne : renamed ≠ path) (hcontents : store.contents path = .ok bytes)
    (hopen : store.openForWriting renamed = .ok location) (node : Node) :
    (store.set location node).contents path = .ok bytes := by
  obtain ⟨hclean, place, hplace, hnode⟩ := contents_eq_ok_iff.1 hcontents
  obtain ⟨-, hlocation, hplain⟩ := of_openForWriting_eq_ok hopen
  have hapart : place ≠ location :=
    place_ne_of_withExtension h hdot hrenamed hne hplace hlocation
  refine contents_eq_ok_iff.2 ⟨hclean, place, locate_set hplain hplace, ?_⟩
  rw [node?_set _ _ _ _ (ne_nil_of_not_directory hplain), if_neg hapart, hnode]

end Store

/-! ## What a run writes -/

/-- Compiling changes nothing, or it writes the output file. -/
theorem compile_fst_eq (store : Store) (path : Path) (codes : List Instruction) (size : Value) :
    (compile store path codes size).1 = store ∨
      ∃ location text, store.openForWriting path = .ok location ∧
        (compile store path codes size).1 = store.set location (.file (Text.encodeUtf8 text)) := by
  rw [compile]
  split
  · next location text hopen hwritten => exact .inr ⟨location, text, hopen, rfl⟩
  · exact .inl rfl

namespace CommandLine

variable {logName : String} {settings : Settings} {store : Store} {output : Path}
  {bytes : List UInt8} {arguments : List String}

theorem store_reportDone (output : Path) (log : String) (store : Store) :
    (reportDone output log store).store = store := by
  unfold reportDone
  split <;> rfl

theorem store_reportFailed (logName : String) (settings : Settings) (output : Path) (log : String)
    (store : Store) (error : CompileError) :
    (reportFailed logName settings output log store error).store = store := by
  unfold reportFailed
  dsimp only
  split <;> rfl

/-- Reports are made after the fact: what a run leaves is what compiling leaves. -/
theorem store_runCompile (program : Program) :
    (runCompile logName settings store program (.value output)).store =
      (compile store output program.codes settings.tapeValue).1 := by
  simp only [runCompile]
  cases hcompile : compile store output program.codes settings.tapeValue with
  | mk after outcome =>
    cases outcome with
    | ok finished => exact store_reportDone _ _ _
    | error error => exact store_reportFailed _ _ _ _ _ _

theorem store_runSettings (houtput : settings.outputPath = .ok (.value output))
    (hcontents : store.contents settings.file = .ok bytes) :
    (runSettings logName settings store).store =
      (compile store output (Instruction.ofBytes bytes) settings.tapeValue).1 := by
  rw [runSettings_of_contents_eq_ok houtput hcontents, store_runCompile]

/-- A source file whose suffix is not that of assembly is kept. -/
theorem contents_runSettings_of_suffix_ne (hunset : settings.output = none)
    (hcontents : store.contents settings.file = .ok bytes)
    (hsuffix : settings.file.suffix ≠ ".asm") :
    (runSettings logName settings store).store.contents settings.file = .ok bytes := by
  have hasm : Path.IsExtension "asm" := by decide
  by_cases hname : settings.file.name = ""
  · have hrefused := outputPath_of_name_eq_empty hunset hname
    simp only [runSettings, hrefused]
    exact hcontents
  · obtain ⟨output, hrenamed, houtput⟩ := exists_outputPath_of_name_ne_empty hunset hname
    have hne : output ≠ settings.file := by
      rintro rfl
      exact hsuffix ((Path.withExtension_eq_self_iff hasm).1 hrenamed)
    rw [store_runSettings houtput hcontents]
    rcases compile_fst_eq store output (Instruction.ofBytes bytes) settings.tapeValue with
      hsame | ⟨location, text, hopen, hset⟩
    · rw [hsame, hcontents]
    · rw [hset]
      exact Store.contents_set_of_withExtension hasm (by decide) hrenamed hne hcontents hopen _

/-- Without a size nothing is written. -/
theorem store_runSettings_of_tapeSize_eq_nothing (hunset : settings.output = none)
    (hcontents : store.contents settings.file = .ok bytes) (hsize : settings.tapeSize = .nothing) :
    (runSettings logName settings store).store = store := by
  by_cases hname : settings.file.name = ""
  · have hrefused := outputPath_of_name_eq_empty hunset hname
    simp only [runSettings, hrefused]
  · obtain ⟨output, -, houtput⟩ := exists_outputPath_of_name_ne_empty hunset hname
    have hcreate : Emitter.create settings.tapeValue = .error (.badTapeSize "[]") := by
      rw [Settings.tapeValue, hsize]
      rfl
    rw [store_runSettings houtput hcontents, compile_of_create_eq_error hcreate]

/-- A source file with the suffix of assembly is its own output, and the text written over it is
not what it held. -/
theorem exists_contents_runSettings_of_suffix_eq {size : Nat} (hproper : settings.Proper)
    (hunset : settings.output = none) (hcontents : store.contents settings.file = .ok bytes)
    (hsuffix : settings.file.suffix = ".asm") (hsize : settings.tapeSize = .value size)
    (hbytes : Number.Writable bytes.length) :
    ∃ text, (runSettings logName settings store).store.contents settings.file =
        .ok (Text.encodeUtf8 text) ∧ Text.encodeUtf8 text ≠ bytes := by
  obtain ⟨hpos, hwritable⟩ := hproper.size size hsize
  have hself : settings.file.withExtension "asm" = .ok settings.file :=
    (Path.withExtension_eq_self_iff (by decide)).2 hsuffix
  have houtput : settings.outputPath = .ok (.value settings.file) := by
    rw [Settings.outputPath, hunset, hself]
    rfl
  obtain ⟨location, hopen⟩ := Store.openForWriting_of_contents_eq_ok hcontents
  have htext := Emitter.text?_leftBy_run (.ofSize size hpos)
    ((Instruction.ofBytes bytes).map .ok)
  obtain ⟨hstore, -⟩ := compile_eq_of_openForWriting_eq_ok hpos hopen htext
  rw [store_runSettings houtput hcontents, tapeValue_of_tapeSize_eq_value hsize, hstore]
  refine ⟨_, (Store.rewritten_set hopen _).contents, fun hsame => ?_⟩
  have hloops : Number.Writable ((Instruction.ofBytes bytes).count .loopStart) :=
    hbytes.of_le (count_loopStart_ofBytes_le bytes)
  refine ofText_ne_of_text?_leftBy_run hpos hwritable hloops htext ?_
  rw [← Instruction.ofBytes_encodeUtf8, hsame]

/-- **What becomes of the source file.** Take words that name no output file and a source file that
can be read. Unless its suffix is that of assembly, the source file holds the same bytes after the
run as before it, however the run ends; and so it does if the size of the tape is missing. With the
suffix of assembly and a size, the run writes a text over the source file, and never the one it
held. -/
theorem run_keeps_source_unless_assembly (logName : String)
    (hread : Settings.read arguments = .ok settings) (hunset : settings.output = none)
    (hcontents : store.contents settings.file = .ok bytes) :
    (settings.file.suffix ≠ ".asm" ∨ settings.tapeSize = .nothing →
      (run logName store arguments).store.contents settings.file = .ok bytes) ∧
    (settings.file.suffix = ".asm" → ∀ size, settings.tapeSize = .value size →
      Number.Writable bytes.length →
      ∃ text, (run logName store arguments).store.contents settings.file =
          .ok (Text.encodeUtf8 text) ∧ Text.encodeUtf8 text ≠ bytes) := by
  have hrun : run logName store arguments = runSettings logName settings store := by
    rw [run, hread]
  rw [hrun]
  refine ⟨fun hkept => ?_, fun hsuffix size hsize hbytes => ?_⟩
  · rcases hkept with hsuffix | hsize
    · exact contents_runSettings_of_suffix_ne hunset hcontents hsuffix
    · rw [store_runSettings_of_tapeSize_eq_nothing hunset hcontents hsize]
      exact hcontents
  · exact exists_contents_runSettings_of_suffix_eq (Settings.proper_of_read_eq_ok hread) hunset
      hcontents hsuffix hsize hbytes

/-- A name that is nothing but the suffix of assembly has no suffix, so its file is kept. -/
theorem run_keeps_source_unless_assembly_hidden :
    Settings.read [".asm"] = .ok ⟨Path.ofText ".asm", none, .value defaultTapeSize, false⟩ ∧
      (oneFile ".asm" [43]).contents (Path.ofText ".asm") = .ok [43] ∧
      (Path.ofText ".asm").suffix ≠ ".asm" ∧
      (run defaultLogName (oneFile ".asm" [43]) [".asm"]).store.contents (Path.ofText ".asm") =
        .ok [43] := by
  have hread : Settings.read [".asm"] =
      .ok ⟨Path.ofText ".asm", none, .value defaultTapeSize, false⟩ :=
    eq_ok_of_toOption_eq_some (by decide +kernel)
  have hcontents : (oneFile ".asm" [43]).contents (Path.ofText ".asm") = .ok [43] :=
    eq_ok_of_toOption_eq_some (by decide +kernel)
  have hsuffix : (Path.ofText ".asm").suffix ≠ ".asm" := by decide +kernel
  exact ⟨hread, hcontents, hsuffix,
    (run_keeps_source_unless_assembly defaultLogName hread rfl hcontents).1 (.inl hsuffix)⟩

/-- A source file with the suffix of assembly, and no output file given: its bytes are lost. -/
theorem run_writes_over_assembly_source :
    Settings.read ["p.asm"] = .ok ⟨Path.ofText "p.asm", none, .value defaultTapeSize, false⟩ ∧
      (oneFile "p.asm" [43]).contents (Path.ofText "p.asm") = .ok [43] ∧
      (run defaultLogName (oneFile "p.asm" [43]) ["p.asm"]).store.contents (Path.ofText "p.asm") ≠
        .ok [43] := by
  have hread : Settings.read ["p.asm"] =
      .ok ⟨Path.ofText "p.asm", none, .value defaultTapeSize, false⟩ :=
    eq_ok_of_toOption_eq_some (by decide +kernel)
  have hcontents : (oneFile "p.asm" [43]).contents (Path.ofText "p.asm") = .ok [43] :=
    eq_ok_of_toOption_eq_some (by decide +kernel)
  have hrun : run defaultLogName (oneFile "p.asm" [43]) ["p.asm"] = runSettings defaultLogName
      ⟨Path.ofText "p.asm", none, .value defaultTapeSize, false⟩ (oneFile "p.asm" [43]) := by
    rw [run, hread]
  obtain ⟨text, hafter, hother⟩ := exists_contents_runSettings_of_suffix_eq
    (Settings.proper_of_read_eq_ok hread) rfl hcontents (by decide +kernel) rfl (by decide +kernel)
  refine ⟨hread, hcontents, fun hsame => hother ?_⟩
  rw [hrun] at hsame
  exact Except.ok.inj (hafter.symm.trans hsame)

end CommandLine

end TapeCompiler
