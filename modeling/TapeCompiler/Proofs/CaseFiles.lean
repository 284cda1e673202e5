/-
# The files of a case

The program, the settings and the expected text of a case are files in one directory.
Whichever path leads to the directory, the three files are found there, so two names
for one directory are one case. Work on a case looks at these three places only, and
regenerating it writes the last of them. The other two have other names, so no
regeneration, of this case or of another, changes what a case compiles to.

A case is up to date if its expected text is the one it compiles to. Regenerating a
case brings it up to date and keeps every other case that is. A case that is up to
date passes its check, and regenerating it changes nothing.
-/

import TapeCompiler.Golden.Case
import TapeCompiler.Proofs.SourceKept
import TapeCompiler.Proofs.TextRoundTrip

namespace TapeCompiler

/-! ## Files in a directory -/

namespace Path

theorem join_singleton (path : Path) (file : String) :
    path.join ⟨.relative, [file]⟩ = ⟨path.root, path.parts ++ [file]⟩ := rfl

/-- The text of a file in a directory is the name of the file behind a stem, which is not much
shorter than the text of the directory. -/
theorem exists_text_join (path : Path) :
    ∃ stem : String, path.text.utf8ByteSize ≤ stem.utf8ByteSize + 1 ∧
      ∀ file, (path.join ⟨.relative, [file]⟩).text = stem ++ file := by
  obtain ⟨root, parts⟩ := path
  by_cases hparts : parts = []
  · subst hparts
    refine ⟨root.text, ?_, fun file => ?_⟩
    · cases root <;> decide +kernel
    · simp [join_singleton, text]
  · refine ⟨root.text ++ String.intercalate "/" parts ++ "/", ?_, fun file => ?_⟩
    · rw [text_of_parts_ne_nil hparts, String.utf8ByteSize_append (t := "/")]
      omega
    · rw [join_singleton, text_of_parts_ne_nil (by simp),
        String.intercalate_append_of_ne_nil hparts (by simp), String.intercalate_singleton]
      simp only [String.append_assoc]

theorem utf8ByteSize_text_le_join (path : Path) {file : String} (h : file ≠ "") :
    path.text.utf8ByteSize ≤ (path.join ⟨.relative, [file]⟩).text.utf8ByteSize := by
  obtain ⟨stem, hstem, htext⟩ := path.exists_text_join
  have hfile : file.utf8ByteSize ≠ 0 := by simpa using h
  rw [htext, String.utf8ByteSize_append]
  omega

theorem hasNul_join (path : Path) (file : String) :
    (path.join ⟨.relative, [file]⟩).hasNul = (path.hasNul || file.toList.contains '\x00') := by
  simp [hasNul, join_singleton]

end Path

namespace Store

variable {store other : Store} {path otherPath : Path} {directory place : Location}
  {file : String} {found : Option Node}

/-- A name that a file can have below any directory. -/
structure IsFileName (file : String) : Prop where
  nonempty : file ≠ ""
  notAbove : file ≠ ".."
  nulFree : '\x00' ∉ file.toList
  short : file.utf8ByteSize ≤ nameLimit

instance : DecidablePred IsFileName := fun file =>
  decidable_of_iff
    (file ≠ "" ∧ file ≠ ".." ∧ '\x00' ∉ file.toList ∧ file.utf8ByteSize ≤ nameLimit)
    ⟨fun ⟨hsome, habove, hnul, hshort⟩ => ⟨hsome, habove, hnul, hshort⟩,
      fun h => ⟨h.nonempty, h.notAbove, h.nulFree, h.short⟩⟩

theorem find_of_locate_eq_ok (hclean : path.hasNul = false)
    (hlocate : store.locate path = .ok place) :
    store.find path = .ok (place, store.node? place) := by
  rw [find, if_neg (Bool.not_eq_true _ ▸ hclean), hlocate]

theorem hasNul_join_eq_false (h : store.find path = .ok (directory, found))
    (hfile : IsFileName file) : (path.join ⟨.relative, [file]⟩).hasNul = false := by
  rw [Path.hasNul_join, (of_find_eq_ok h).1]
  simpa using hfile.nulFree

/-- A file of a directory stands right below it, whichever path leads to the directory. -/
theorem find_join (h : store.find path = .ok (directory, some .directory))
    (hfile : IsFileName file)
    (hshort : (path.join ⟨.relative, [file]⟩).text.utf8ByteSize < pathLimit) :
    store.find (path.join ⟨.relative, [file]⟩) =
      .ok (directory ++ [file], store.node? (directory ++ [file])) := by
  obtain ⟨-, hlocate, hnode⟩ := of_find_eq_ok h
  refine find_of_locate_eq_ok (hasNul_join_eq_false h hfile) ?_
  unfold locate at hlocate ⊢
  rw [if_neg (by omega)]
  split at hlocate
  · cases hlocate
  · have henter : store.enter directory file = .ok (directory ++ [file]) := by
      simp [enter, hnode, hfile.notAbove, Nat.not_lt.2 hfile.short]
    simp only [Path.join_singleton, List.foldlM_append, List.foldlM_cons, List.foldlM_nil,
      bind_pure]
    dsimp only at hlocate ⊢
    rw [hlocate]
    exact henter

/-- A path whose text is too long leads nowhere. -/
theorem find_of_pathLimit_le (hclean : path.hasNul = false)
    (hlong : pathLimit ≤ path.text.utf8ByteSize) :
    store.find path = .error (.fault .nameTooLong) := by
  rw [find, if_neg (Bool.not_eq_true _ ▸ hclean), locate, if_pos hlong]

/-- A path to a file passes through the directory of the file. -/
theorem exists_find_of_find_join (hfile : file ≠ "")
    (h : store.find (path.join ⟨.relative, [file]⟩) = .ok (place, found)) :
    (path.join ⟨.relative, [file]⟩).text.utf8ByteSize < pathLimit ∧
      ∃ directory, store.find path = .ok (directory, some .directory) := by
  obtain ⟨hclean, hlocate, -⟩ := of_find_eq_ok h
  have hshort : (path.join ⟨.relative, [file]⟩).text.utf8ByteSize < pathLimit := by
    unfold locate at hlocate
    split at hlocate
    · cases hlocate
    · omega
  obtain ⟨directory, hfold, henter⟩ := exists_enter_of_locate_eq_ok hlocate
  have hnode := node?_of_enter_eq_ok henter
  have hpath : path.hasNul = false := by
    rw [Path.hasNul_join] at hclean
    exact (Bool.or_eq_false_iff.1 hclean).1
  have hdirectory : store.locate path = .ok directory := by
    -- The directory has the shorter text, so it is not too long either.
    have hle := path.utf8ByteSize_text_le_join hfile
    rw [locate, if_neg (by omega)]
    exact hfold
  refine ⟨hshort, directory, ?_⟩
  rw [find_of_locate_eq_ok hpath hdirectory, hnode]

theorem exists_find_of_contents_eq_ok {bytes : List UInt8} (h : store.contents path = .ok bytes) :
    ∃ place, store.find path = .ok (place, some (.file bytes)) := by
  obtain ⟨hclean, place, hlocate, hnode⟩ := contents_eq_ok_iff.1 h
  exact ⟨place, by rw [find_of_locate_eq_ok hclean hlocate, hnode]⟩

theorem DirectoriesIn.find (h : store.DirectoriesIn other)
    (hfind : store.find path = .ok (directory, some .directory)) :
    other.find path = .ok (directory, some .directory) := by
  obtain ⟨hclean, hlocate, hnode⟩ := of_find_eq_ok hfind
  rw [find_of_locate_eq_ok hclean (h.locate hlocate), h.directory directory hnode]

/-- Two stores with the same directory find the same file in it if it is the same in both. -/
theorem find_join_congr (h : store.find path = .ok (directory, some .directory))
    (hother : other.find path = .ok (directory, some .directory)) (hfile : IsFileName file)
    (hnode : other.node? (directory ++ [file]) = store.node? (directory ++ [file])) :
    other.find (path.join ⟨.relative, [file]⟩) = store.find (path.join ⟨.relative, [file]⟩) := by
  by_cases hshort : (path.join ⟨.relative, [file]⟩).text.utf8ByteSize < pathLimit
  · rw [find_join h hfile hshort, find_join hother hfile hshort, hnode]
  · -- A path that is too long is refused before the store is looked at.
    have hclean := hasNul_join_eq_false h hfile
    rw [find_of_pathLimit_le hclean (Nat.not_lt.1 hshort),
      find_of_pathLimit_le hclean (Nat.not_lt.1 hshort)]

/-- Nothing is made where a directory is there already, so this takes no room. -/
theorem makeDirectories_of_find (h : store.find path = .ok (directory, some .directory))
    (room : Nat) : store.makeDirectories path room = (store, .ok ()) := by
  have hmake : store.makeOrFind? path = some (store, .ok ()) := by
    simp [makeOrFind?, makeDirectory, h, bind, Except.bind, throw, throwThe, MonadExceptOf.throw,
      IoFault.fileExists, IoFault.noSuchFile]
  rw [makeDirectories]
  cases hparts : path.parts.reverse with
  | nil => rfl
  | cons part above =>
    have hpath : (⟨path.root, (part :: above).reverse⟩ : Path) = path := by
      rw [← hparts, List.reverse_reverse]
    rw [makeDirectoriesFrom, hpath, hmake]

theorem setEntry_eq_self {location : Location} {node : Node} {entries : List (Location × Node)}
    (h : entries.lookup location = some node) : setEntry location node entries = entries := by
  induction entries with
  | nil => cases h
  | cons entry rest ih =>
    obtain ⟨place, old⟩ := entry
    by_cases hplace : place = location
    · subst hplace
      rw [List.lookup_cons_self] at h
      cases h
      rw [setEntry, if_pos rfl]
    · have hapart : (location == place) = false := by simpa using Ne.symm hplace
      rw [List.lookup_cons, hapart] at h
      rw [setEntry, if_neg hplace, ih h]

/-- Putting a node where it is already changes nothing. -/
theorem set_eq_self {location : Location} {node : Node} (hsome : location ≠ [])
    (h : store.node? location = some node) : store.set location node = store := by
  unfold node? at h
  split at h
  · exact absurd rfl hsome
  · rw [set, setEntry_eq_self h]

/-- A file found through its directory stands right below it. -/
theorem eq_of_find_join (h : store.find path = .ok (directory, some .directory))
    (hfile : IsFileName file)
    (hfind : store.find (path.join ⟨.relative, [file]⟩) = .ok (place, found)) :
    place = directory ++ [file] ∧ store.node? (directory ++ [file]) = found := by
  obtain ⟨hshort, -⟩ := exists_find_of_find_join hfile.nonempty hfind
  rw [find_join h hfile hshort] at hfind
  cases hfind
  exact ⟨rfl, rfl⟩

/-! ## What is read through a path -/

theorem contents_congr (h : other.find otherPath = store.find path) :
    other.contents otherPath = store.contents path := by
  rw [contents, contents, h]

theorem pathExists_congr (h : other.find otherPath = store.find path) :
    other.pathExists otherPath = store.pathExists path := by
  rw [pathExists, pathExists, look, look, h]

theorem openForWriting_of_find (h : store.find path = .ok (place, found))
    (hfound : found ≠ some .directory) : store.openForWriting path = .ok place := by
  rw [openForWriting, h]
  rcases found with _ | _ | bytes
  · rfl
  · exact absurd rfl hfound
  · rfl

end Store

theorem TextFile.read_eq_ok_of_find_eq {store other : Store} {path otherPath : Path}
    {text : String} (h : other.find otherPath = store.find path)
    (hread : read store path = .ok text) : read other otherPath = .ok text := by
  rw [read, Store.contents_congr h]
  rw [read] at hread
  cases hcontents : store.contents path with
  | error error =>
    rw [hcontents] at hread
    cases hread
  | ok bytes =>
    rw [hcontents] at hread
    exact hread

/-! ## What a case compiles to -/

namespace Golden

variable {store other : Store} {golden : Directory} {name second : String} {directory : Location}
  {document : Document} {text : String} {bytes : List UInt8}

/-- The directory of a case. -/
def caseDirectory (golden : Directory) (name : String) : Path :=
  golden.path.join (Path.ofText name)

theorem caseFile_eq (golden : Directory) (name file : String) :
    caseFile golden name file = (caseDirectory golden name).join ⟨.relative, [file]⟩ := rfl

theorem isFileName_programFile : Store.IsFileName programFile := by decide +kernel

theorem isFileName_settingsFile : Store.IsFileName settingsFile := by decide +kernel

theorem isFileName_expectedFile : Store.IsFileName expectedFile := by decide +kernel

/-- A program that can be read compiles to what is generated from its instructions. -/
theorem compileFile_of_contents_eq_ok {path : Path} (h : store.contents path = .ok bytes)
    (size : Value) :
    compileFile store path size =
      (generate (Instruction.ofBytes bytes) size).mapError .emit := by
  rw [compileFile, Program.load_of_contents_eq_ok h]
  dsimp only
  cases generate (Instruction.ofBytes bytes) size <;> rfl

theorem exists_contents_of_compileFile_eq_ok {path : Path} {size : Value}
    (h : compileFile store path size = .ok text) : ∃ bytes, store.contents path = .ok bytes := by
  cases hcontents : store.contents path with
  | error error => cases error <;> simp [compileFile, Program.load, hcontents] at h
  | ok bytes => exact ⟨bytes, rfl⟩

/-- A case compiles to a text if its settings give a size and its program generates the text. -/
theorem exists_of_actual_eq_ok (h : actual store golden name = .ok text) :
    ∃ document size bytes, settings store golden name = .ok document ∧
      tapeSize document = .ok size ∧
      store.contents (caseFile golden name programFile) = .ok bytes ∧
      generate (Instruction.ofBytes bytes) (.int size) = .ok text := by
  obtain ⟨document, hdocument, h⟩ := exists_of_bind_eq_ok h
  obtain ⟨size, hsize, h⟩ := exists_of_bind_eq_ok h
  obtain ⟨bytes, hbytes⟩ := exists_contents_of_compileFile_eq_ok h
  rw [compileFile_of_contents_eq_ok hbytes] at h
  refine ⟨document, size, bytes, hdocument, hsize, hbytes, ?_⟩
  cases hgenerate : generate (Instruction.ofBytes bytes) (.int size) with
  | error error =>
    rw [hgenerate] at h
    cases h
  | ok generated =>
    rw [hgenerate] at h
    cases h
    rfl

theorem actual_of_contents_eq_ok {size : Int}
    (hsettings : settings store golden name = .ok document) (hsize : tapeSize document = .ok size)
    (hcontents : store.contents (caseFile golden name programFile) = .ok bytes) :
    actual store golden name =
      (generate (Instruction.ofBytes bytes) (.int size)).mapError .emit := by
  simp only [actual, hsettings, hsize, bind, Except.bind, compileFile_of_contents_eq_ok hcontents]

theorem return_notMem_of_actual_eq_ok (h : actual store golden name = .ok text) :
    '\r' ∉ text.toList := by
  obtain ⟨_, _, _, _, _, _, hgenerate⟩ := exists_of_actual_eq_ok h
  exact return_notMem_of_generate_eq_ok hgenerate

theorem settings_eq_ok_of_find_eq
    (h : other.find (caseFile golden second settingsFile) =
      store.find (caseFile golden name settingsFile))
    (hsettings : settings store golden name = .ok document) :
    settings other golden second = .ok document := by
  simp only [settings] at hsettings ⊢
  rw [Store.pathExists_congr h]
  cases hthere : store.pathExists (caseFile golden name settingsFile) with
  | error fault =>
    rw [hthere] at hsettings
    cases hsettings
  | ok there =>
    rw [hthere] at hsettings
    cases there with
    | false => exact hsettings
    | true =>
      dsimp only at hsettings ⊢
      cases hread : TextFile.read store (caseFile golden name settingsFile) with
      | error error =>
        rw [hread] at hsettings
        cases hsettings
      | ok text =>
        rw [hread] at hsettings
        rw [TextFile.read_eq_ok_of_find_eq h hread]
        exact hsettings

/-- What a case compiles to depends on nothing but the nodes of its settings and its program. -/
theorem actual_eq_ok_of_find_eq
    (hsettings : other.find (caseFile golden second settingsFile) =
      store.find (caseFile golden name settingsFile))
    (hprogram : other.find (caseFile golden second programFile) =
      store.find (caseFile golden name programFile))
    (h : actual store golden name = .ok text) : actual other golden second = .ok text := by
  obtain ⟨document, size, bytes, hdocument, hsize, hbytes, hgenerate⟩ := exists_of_actual_eq_ok h
  rw [actual_of_contents_eq_ok (settings_eq_ok_of_find_eq hsettings hdocument) hsize
    ((Store.contents_congr hprogram).trans hbytes), hgenerate]
  rfl

/-- The check of a case looks at its three files only. -/
theorem check_congr
    (h : ∀ file ∈ [settingsFile, programFile, expectedFile],
      other.find (caseFile golden name file) = store.find (caseFile golden name file)) :
    check other golden name = check store golden name := by
  have hsettings := h settingsFile (by simp)
  have hprogram := h programFile (by simp)
  have hexpected := h expectedFile (by simp)
  simp only [check, actual, settings, compileFile, Program.load, TextFile.read,
    Store.pathExists_congr hsettings, Store.contents_congr hsettings,
    Store.contents_congr hprogram, Store.contents_congr hexpected]

/-- A case that compiles has a directory, and its settings and its program are looked for there. -/
theorem exists_directory_of_actual_eq_ok (h : actual store golden name = .ok text) :
    ∃ directory, store.find (caseDirectory golden name) = .ok (directory, some .directory) ∧
      ∀ file ∈ [settingsFile, programFile], store.find (caseFile golden name file) =
        .ok (directory ++ [file], store.node? (directory ++ [file])) := by
  obtain ⟨_, _, bytes, _, _, hbytes, _⟩ := exists_of_actual_eq_ok h
  obtain ⟨place, hprogram⟩ := Store.exists_find_of_contents_eq_ok hbytes
  rw [caseFile_eq] at hprogram
  obtain ⟨hshort, directory, hdirectory⟩ :=
    Store.exists_find_of_find_join isFileName_programFile.nonempty hprogram
  refine ⟨directory, hdirectory, fun file hfile => ?_⟩
  -- The settings have the shorter name, so where the program is found they can be looked for.
  obtain ⟨stem, -, hstem⟩ := (caseDirectory golden name).exists_text_join
  have hplain : Store.IsFileName file ∧ file.utf8ByteSize ≤ programFile.utf8ByteSize := by
    simp only [List.mem_cons, List.not_mem_nil, or_false] at hfile
    rcases hfile with rfl | rfl <;> decide +kernel
  rw [caseFile_eq]
  refine Store.find_join hdirectory hplain.1 ?_
  rw [hstem, String.utf8ByteSize_append] at hshort ⊢
  omega

/-- Two names of one directory are one case. -/
theorem eq_of_actual_eq_ok_of_directory {secondText : String}
    (hname : store.find (caseDirectory golden name) = .ok (directory, some .directory))
    (hsecond : store.find (caseDirectory golden second) = .ok (directory, some .directory))
    (h : actual store golden name = .ok text) (h' : actual store golden second = .ok secondText) :
    secondText = text := by
  obtain ⟨place, hplace, hfiles⟩ := exists_directory_of_actual_eq_ok h
  obtain ⟨place', hplace', hfiles'⟩ := exists_directory_of_actual_eq_ok h'
  obtain rfl : directory = place := congrArg Prod.fst (Except.ok.inj (hname.symm.trans hplace))
  obtain rfl : directory = place' := congrArg Prod.fst (Except.ok.inj (hsecond.symm.trans hplace'))
  have hfound : ∀ file ∈ [settingsFile, programFile],
      store.find (caseFile golden second file) = store.find (caseFile golden name file) :=
    fun file hfile => (hfiles' file hfile).trans (hfiles file hfile).symm
  have hsame := actual_eq_ok_of_find_eq (hfound settingsFile (by simp))
    (hfound programFile (by simp)) h
  exact Except.ok.inj (h'.symm.trans hsame)

/-! ## Regenerating a case -/

/-- A case can be regenerated: it compiles to a text, and its expected file can be written. -/
structure Regenerates (store : Store) (golden : Directory) (name : String) (directory : Location)
    (text : String) : Prop where
  found : store.find (caseDirectory golden name) = .ok (directory, some .directory)
  compiles : actual store golden name = .ok text
  opens : store.openForWriting (caseFile golden name expectedFile) =
    .ok (directory ++ [expectedFile])

/-- The store in which the expected file of a directory holds a text. -/
def rewritten (store : Store) (directory : Location) (text : String) : Store :=
  store.set (directory ++ [expectedFile]) (.file (Text.encodeUtf8 text))

theorem node?_rewritten (store : Store) (directory place : Location) (text : String) :
    (rewritten store directory text).node? place =
      if place = directory ++ [expectedFile] then some (.file (Text.encodeUtf8 text))
      else store.node? place :=
  Store.node?_set _ _ _ _ (by simp)

theorem directoriesIn_of_rewritten (store : Store) (directory : Location) (text : String) :
    (rewritten store directory text).DirectoriesIn store := by
  refine ⟨rfl, fun place hplace => ?_⟩
  rw [node?_rewritten] at hplace
  split at hplace
  · cases hplace
  · exact hplace

theorem directoriesIn_rewritten
    (h : store.node? (directory ++ [expectedFile]) ≠ some .directory) (text : String) :
    store.DirectoriesIn (rewritten store directory text) :=
  Store.directoriesIn_set h

/-- Programs and settings have other names than the file that is written. -/
theorem find_caseFile_rewritten {file : String} {elsewhere : Location}
    (h : store.node? (directory ++ [expectedFile]) ≠ some .directory) (text : String)
    (hfile : Store.IsFileName file)
    (hfound : store.find (caseDirectory golden name) = .ok (elsewhere, some .directory))
    (hapart : elsewhere ≠ directory ∨ file ≠ expectedFile) :
    (rewritten store directory text).find (caseFile golden name file) =
      store.find (caseFile golden name file) := by
  refine Store.find_join_congr hfound ((directoriesIn_rewritten h text).find hfound) hfile ?_
  rw [node?_rewritten, if_neg]
  intro hsame
  obtain ⟨hdirectory, hlast⟩ := List.append_inj' hsame rfl
  rcases hapart with hapart | hapart
  · exact hapart hdirectory
  · exact hapart (List.singleton_inj.1 hlast)

/-- A file of a case that has its directory is written without making one, so this takes no
room. -/
theorem write_caseFile_of_find
    (h : store.find (caseDirectory golden name) = .ok (directory, some .directory))
    (file text : String) (room : Nat) :
    TextFile.write store (caseFile golden name file) text room =
      match store.openForWriting (caseFile golden name file) with
      | .error error => (store, .error (.ofAccess (caseFile golden name file) error))
      | .ok place => (store.set place (.file (Text.encodeUtf8 text)), .ok ()) := by
  have hparent : store.makeDirectories (caseFile golden name file).parent room =
      (store, .ok ()) := by
    rw [caseFile_eq, Path.parent_join_relative, Store.makeDirectories_of_find h]
  rewrite [TextFile.write, hparent]
  rfl

/-- A case whose expected text is the one it compiles to. -/
def UpToDate (store : Store) (golden : Directory) (name : String) : Prop :=
  ∃ text, actual store golden name = .ok text ∧
    store.contents (caseFile golden name expectedFile) = .ok (Text.encodeUtf8 text)

theorem exists_regenerates_of_regenerate_eq_ok {after : Store}
    (h : regenerate store golden name = (after, .ok ())) :
    ∃ directory text, Regenerates store golden name directory text ∧
      after = rewritten store directory text := by
  unfold regenerate at h
  split at h
  · cases h
  · next text hactual =>
    obtain ⟨directory, hfound, -⟩ := exists_directory_of_actual_eq_ok hactual
    -- The program was read from the directory, so there is none to be made.
    rw [write_caseFile_of_find hfound] at h
    cases hopen : store.openForWriting (caseFile golden name expectedFile) with
    | error error =>
      rw [hopen] at h
      cases h
    | ok place =>
      rw [hopen] at h
      cases h
      obtain ⟨hclean, hlocate, -⟩ := Store.of_openForWriting_eq_ok hopen
      obtain ⟨rfl, -⟩ := Store.eq_of_find_join hfound isFileName_expectedFile
        (Store.find_of_locate_eq_ok hclean hlocate)
      exact ⟨directory, text, ⟨hfound, hactual, hopen⟩, rfl⟩

namespace Regenerates

variable (h : Regenerates store golden name directory text)
include h

theorem regenerate_eq :
    regenerate store golden name = (rewritten store directory text, .ok ()) := by
  rw [regenerate, h.compiles]
  dsimp only
  rw [write_caseFile_of_find h.found, h.opens]
  rfl

theorem plain : store.node? (directory ++ [expectedFile]) ≠ some .directory :=
  (Store.of_openForWriting_eq_ok h.opens).2.2

/-- No case compiles to another text afterwards. -/
theorem actual_rewritten {other : String} (hother : actual store golden second = .ok other) :
    actual (rewritten store directory text) golden second = .ok other := by
  obtain ⟨elsewhere, helsewhere, -⟩ := exists_directory_of_actual_eq_ok hother
  exact actual_eq_ok_of_find_eq
    (find_caseFile_rewritten h.plain _ isFileName_settingsFile helsewhere (.inr (by decide)))
    (find_caseFile_rewritten h.plain _ isFileName_programFile helsewhere (.inr (by decide))) hother

theorem upToDate_rewritten : UpToDate (rewritten store directory text) golden name :=
  ⟨text, h.actual_rewritten h.compiles, (Store.rewritten_set h.opens _).contents⟩

/-- A case that is up to date stays so. It may be the one that is written, under another name. -/
theorem keeps_upToDate (hother : UpToDate store golden second) :
    UpToDate (rewritten store directory text) golden second := by
  obtain ⟨secondText, hactual, hcontents⟩ := hother
  refine ⟨secondText, h.actual_rewritten hactual, ?_⟩
  obtain ⟨elsewhere, helsewhere, -⟩ := exists_directory_of_actual_eq_ok hactual
  by_cases hdirectory : elsewhere = directory
  · -- The text was written into this case too, and it compiles to no other one.
    subst hdirectory
    obtain ⟨place, hplace⟩ := Store.exists_find_of_contents_eq_ok hcontents
    obtain ⟨hshort, -⟩ := Store.exists_find_of_find_join isFileName_expectedFile.nonempty hplace
    have hafter := Store.find_join ((directoriesIn_rewritten h.plain text).find helsewhere)
      isFileName_expectedFile hshort
    rw [node?_rewritten, if_pos rfl] at hafter
    rw [Store.contents, caseFile_eq, hafter,
      eq_of_actual_eq_ok_of_directory h.found helsewhere h.compiles hactual]
    rfl
  · rw [Store.contents_congr (find_caseFile_rewritten h.plain _ isFileName_expectedFile helsewhere
      (.inl hdirectory)), hcontents]

end Regenerates

namespace UpToDate

variable (h : UpToDate store golden name)
include h

/-- A case that is up to date passes its check. -/
theorem check_eq : check store golden name = .ok none := by
  obtain ⟨text, hactual, hcontents⟩ := h
  -- Reading turns carriage returns into line feeds, and there are none.
  have hread := TextFile.read_of_contents_eq_encodeUtf8 hcontents
    (return_notMem_of_actual_eq_ok hactual)
  simp only [check, hactual, bind, Except.bind, hread]
  rfl

/-- Regenerating a case that is up to date changes nothing. -/
theorem regenerate_eq : regenerate store golden name = (store, .ok ()) := by
  obtain ⟨text, hactual, hcontents⟩ := h
  obtain ⟨directory, hfound, -⟩ := exists_directory_of_actual_eq_ok hactual
  obtain ⟨place, hplace⟩ := Store.exists_find_of_contents_eq_ok hcontents
  obtain ⟨rfl, hnode⟩ := Store.eq_of_find_join hfound isFileName_expectedFile hplace
  have hopens := Store.openForWriting_of_find hplace (by simp)
  have hregenerates : Regenerates store golden name directory text := ⟨hfound, hactual, hopens⟩
  rw [hregenerates.regenerate_eq, rewritten, Store.set_eq_self (by simp) hnode]

end UpToDate

end Golden

end TapeCompiler
