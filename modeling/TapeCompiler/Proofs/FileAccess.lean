/-
# Places in the file system and writing the output

A path that leads somewhere passes through directories only, so putting a file
where no directory is does not lead it elsewhere. Hence an output that was opened
holds afterwards exactly what was written, and no other place changes.

Writing is one run of a fresh emitter, and the output takes the text that the run
leaves in its sink, whether the run succeeds or not.
-/

import TapeCompiler.Compile
import TapeCompiler.Proofs.ArgumentValues
import TapeCompiler.Proofs.Acceptance
import TapeCompiler.Proofs.ChunkedReading

namespace TapeCompiler

/-! ## Extensions -/

namespace Path

variable {path renamed : Path} {extension : String}

/-- An extension that can be put on a path with a name. -/
def IsExtension (extension : String) : Prop :=
  extension ≠ "" ∧ '/' ∉ extension.toList

instance : DecidablePred IsExtension := fun extension =>
  inferInstanceAs (Decidable (extension ≠ "" ∧ '/' ∉ extension.toList))

theorem withExtension_of_name_ne_empty (h : IsExtension extension) (hname : path.name ≠ "") :
    path.withExtension extension = .ok { path with
      parts := path.parts.dropLast ++
        [String.ofList ((splitSuffix path.name.toList).1 ++ '.' :: extension.toList)] } := by
  have hvalid : ¬ (extension.isEmpty ∨ extension.toList.contains '/') := by
    simpa [IsExtension] using h
  rw [withExtension, if_neg hvalid]
  split
  · next hempty => exact absurd (String.toList_eq_nil_iff.1 hempty) hname
  · rfl

theorem withExtension_of_name_eq_empty (h : IsExtension extension) (hname : path.name = "") :
    path.withExtension extension = .error (.emptyName path) := by
  have hvalid : ¬ (extension.isEmpty ∨ extension.toList.contains '/') := by
    simpa [IsExtension] using h
  rw [withExtension, if_neg hvalid, hname]
  rfl

theorem name_mem_parts (h : path.name ≠ "") : path.name ∈ path.parts := by
  unfold name at h ⊢
  cases hlast : path.parts.getLast? with
  | none => simp [hlast] at h
  | some last => exact List.mem_of_getLast? hlast

/-- Changing the extension gives a path with a name, and brings no NUL character in. -/
theorem of_withExtension_eq_ok (h : IsExtension extension) (hclean : '\x00' ∉ extension.toList)
    (hrenamed : path.withExtension extension = .ok renamed) :
    renamed.name ≠ "" ∧ (path.hasNul = false → renamed.hasNul = false) := by
  by_cases hname : path.name = ""
  · rw [withExtension_of_name_eq_empty h hname] at hrenamed
    cases hrenamed
  · rw [withExtension_of_name_ne_empty h hname] at hrenamed
    cases hrenamed
    refine ⟨fun hempty => ?_, fun hpath => ?_⟩
    · simpa [name] using congrArg String.toList hempty
    · rw [hasNul_eq_false_iff] at hpath ⊢
      intro part hpart hnul
      rcases List.mem_append.1 hpart with hpart | hpart
      · exact hpath part (List.dropLast_subset _ hpart) hnul
      · rw [List.mem_singleton.1 hpart, String.toList_ofList] at hnul
        rcases List.mem_append.1 hnul with hstem | hsuffix
        · -- The stem is a piece of the old name.
          refine hpath _ (name_mem_parts hname) ?_
          rw [← splitSuffix_append path.name.toList]
          exact List.mem_append_left _ hstem
        · rcases List.mem_cons.1 hsuffix with hdot | hsuffix
          · exact absurd hdot (by decide)
          · exact hclean hsuffix

/-- A path that was read has an empty name only if it has no parts. -/
theorem parts_eq_nil_of_name_ofText_eq_empty {text : String} (h : (ofText text).name = "") :
    (ofText text).parts = [] := by
  cases hlast : (ofText text).parts.getLast? with
  | none => exact List.getLast?_eq_none_iff.1 hlast
  | some last =>
    have hempty : last = "" := by simpa [name, hlast] using h
    exact absurd hempty (part_of_mem_ofText (List.mem_of_getLast? hlast)).1

end Path

/-! ## Places in the file system -/

namespace Store

variable {store : Store} {path : Path} {location place next : Location} {node : Node}
  {error : AccessError}

/-- The working directory is a directory that exists. -/
def InDirectory (store : Store) : Prop :=
  store.node? store.workingDirectory = some .directory

instance : DecidablePred InDirectory := fun store =>
  inferInstanceAs (Decidable (store.node? store.workingDirectory = some .directory))

theorem ne_nil_of_not_directory (h : store.node? location ≠ some .directory) : location ≠ [] := by
  rintro rfl
  exact h rfl

theorem node?_of_enter_eq_ok {part : String} (h : store.enter place part = .ok next) :
    store.node? place = some .directory := by
  unfold enter at h
  split at h
  · cases h
  · cases h
  · assumption

/-- Paths start at the same place in both stores, and every directory of the one is a directory of
the other. -/
structure DirectoriesIn (store other : Store) : Prop where
  workingDirectory : other.workingDirectory = store.workingDirectory
  directory : ∀ place, store.node? place = some .directory → other.node? place = some .directory

namespace DirectoriesIn

variable {other third : Store}

theorem refl (store : Store) : store.DirectoriesIn store := ⟨rfl, fun _ h => h⟩

theorem trans (h : store.DirectoriesIn other) (hother : other.DirectoriesIn third) :
    store.DirectoriesIn third :=
  ⟨hother.workingDirectory.trans h.workingDirectory,
    fun place hplace => hother.directory place (h.directory place hplace)⟩

/-- A step along a path starts in a directory, so nothing else matters to it. -/
theorem enter {part : String} (h : store.DirectoriesIn other)
    (henter : store.enter place part = .ok next) : other.enter place part = .ok next := by
  have hplace := node?_of_enter_eq_ok henter
  unfold Store.enter at henter ⊢
  rwa [h.directory place hplace, ← hplace]

theorem foldlM_enter {parts : List String} (h : store.DirectoriesIn other)
    (hfold : parts.foldlM store.enter place = .ok next) :
    parts.foldlM other.enter place = .ok next := by
  induction parts generalizing place with
  | nil => exact hfold
  | cons part rest ih =>
    rw [List.foldlM_cons] at hfold ⊢
    obtain ⟨middle, henter, hfold⟩ := exists_of_bind_eq_ok hfold
    rw [h.enter henter]
    exact ih hfold

/-- A path that leads somewhere leads to the same place. -/
theorem locate (h : store.DirectoriesIn other) (hlocate : store.locate path = .ok place) :
    other.locate path = .ok place := by
  unfold Store.locate at hlocate ⊢
  split at hlocate
  · cases hlocate
  · next hshort =>
    rw [if_neg hshort, h.workingDirectory]
    exact h.foldlM_enter hlocate

end DirectoriesIn

theorem directoriesIn_set (h : store.node? location ≠ some .directory) :
    store.DirectoriesIn (store.set location node) := by
  refine ⟨rfl, fun place hplace => ?_⟩
  have hapart : place ≠ location := by
    rintro rfl
    exact h hplace
  rw [node?_set _ _ _ _ (ne_nil_of_not_directory h), if_neg hapart, hplace]

/-- A path leads to the same place after a file was put where no directory is. -/
theorem locate_set (h : store.node? location ≠ some .directory)
    (hlocate : store.locate path = .ok place) :
    (store.set location node).locate path = .ok place :=
  (directoriesIn_set h).locate hlocate

theorem of_find_eq_ok {found : Option Node} (h : store.find path = .ok (place, found)) :
    path.hasNul = false ∧ store.locate path = .ok place ∧ store.node? place = found := by
  unfold find at h
  split at h
  · cases h
  · next hclean =>
    split at h
    · cases h
    · next location hlocate =>
      cases h
      exact ⟨Bool.eq_false_iff.2 hclean, hlocate, rfl⟩

/-- What is done with the place of a path fails, for a path without a NUL character, on the file
system. -/
theorem exists_fault_of_find_bind_eq_error {α : Type}
    {rest : Location × Option Node → Except AccessError α}
    (hrest : ∀ found, rest found = .error error → ∃ fault, error = .fault fault)
    (h : path.hasNul = false) (hresult : (store.find path >>= rest) = .error error) :
    ∃ fault, error = .fault fault := by
  rw [find, if_neg (Bool.not_eq_true _ ▸ h)] at hresult
  cases hlocate : store.locate path with
  | error fault =>
    rw [hlocate] at hresult
    cases hresult
    exact ⟨fault, rfl⟩
  | ok place =>
    rw [hlocate] at hresult
    exact hrest _ hresult

theorem exists_fault_of_contents_eq_error (h : path.hasNul = false)
    (hcontents : store.contents path = .error error) : ∃ fault, error = .fault fault := by
  refine exists_fault_of_find_bind_eq_error (fun found hfound => ?_) h hcontents
  split at hfound <;> cases hfound <;> exact ⟨_, rfl⟩

theorem exists_fault_of_openForWriting_eq_error (h : path.hasNul = false)
    (hopen : store.openForWriting path = .error error) : ∃ fault, error = .fault fault := by
  refine exists_fault_of_find_bind_eq_error (fun found hfound => ?_) h hopen
  split at hfound <;> cases hfound
  exact ⟨_, rfl⟩

/-- An output that opens is at the place its path leads to, and no directory is there. -/
theorem of_openForWriting_eq_ok (h : store.openForWriting path = .ok location) :
    path.hasNul = false ∧ store.locate path = .ok location ∧
      store.node? location ≠ some .directory := by
  obtain ⟨⟨place, found⟩, hfind, h⟩ := exists_of_bind_eq_ok h
  obtain ⟨hclean, hlocate, hnode⟩ := of_find_eq_ok hfind
  rcases found with _ | _ | bytes
  · cases h
    exact ⟨hclean, hlocate, by simp [hnode]⟩
  · cases h
  · cases h
    exact ⟨hclean, hlocate, by simp [hnode]⟩

/-- An output that opens has parts, since without any its path leads to a directory. -/
theorem parts_ne_nil_of_openForWriting_eq_ok (hstore : store.InDirectory)
    (h : store.openForWriting path = .ok location) : path.parts ≠ [] := by
  intro hparts
  obtain ⟨-, hlocate, hplain⟩ := of_openForWriting_eq_ok h
  unfold locate at hlocate
  split at hlocate
  · cases hlocate
  · rw [hparts] at hlocate
    cases hlocate
    split at hplain
    · exact hplain hstore
    · exact hplain rfl

/-! ## What writing a file changes -/

/-- The store in which one path leads to a file with these bytes and which is the same everywhere
else. -/
structure Rewritten (store : Store) (path : Path) (bytes : List UInt8) (after : Store) : Prop where
  contents : after.contents path = .ok bytes
  others : ∀ place, store.locate path ≠ .ok place → after.node? place = store.node? place
  workingDirectory : after.workingDirectory = store.workingDirectory

theorem rewritten_set (h : store.openForWriting path = .ok location) (bytes : List UInt8) :
    store.Rewritten path bytes (store.set location (.file bytes)) := by
  obtain ⟨hclean, hlocate, hplain⟩ := of_openForWriting_eq_ok h
  have hsome : location ≠ [] := ne_nil_of_not_directory hplain
  refine ⟨?_, fun place hplace => ?_, rfl⟩
  · have hafter : (store.set location (.file bytes)).locate path = .ok location :=
      locate_set hplain hlocate
    rw [contents, find, if_neg (Bool.not_eq_true _ ▸ hclean), hafter]
    simp [node?_set _ _ _ _ hsome, bind, Except.bind, pure, Except.pure]
  · have hapart : place ≠ location := by
      rintro rfl
      exact hplace hlocate
    rw [node?_set _ _ _ _ hsome, if_neg hapart]

/-- The store after the output at a location took a text, if it took one. -/
def receive (store : Store) (location : Location) : Option String → Store
  | some text => store.set location (.file (Text.encodeUtf8 text))
  | none => store

end Store

/-! ## Compiling into a file -/

section Compile

variable {store : Store} {path : Path} {location : Location} {codes : List Instruction}
  {size : Nat} {fault : IoFault}

theorem create_natCast (hpos : 0 < size) :
    Emitter.create (.int size) = .ok (.ofSize size hpos) :=
  Emitter.create_int_of_pos (show 0 < (size : Int).toNat from hpos)

/-- An output that does not open leaves the file system alone. -/
theorem compile_of_openForWriting_eq_error (hpos : 0 < size)
    (h : store.openForWriting path = .error (.fault fault)) :
    compile store path codes (.int size) = (store, .error (.output path fault)) := by
  simp [compile, compileInto, compileEvents, create_natCast hpos, h, Except.map]

/-- An output that opens takes the text that one run of a fresh emitter leaves in its sink. -/
theorem compile_of_openForWriting_eq_ok (hpos : 0 < size)
    (h : store.openForWriting path = .ok location) :
    compile store path codes (.int size) =
      match Emitter.run (codes.map .ok) .empty (.ofSize size hpos) with
      | .ok _ finished => (store.receive location finished.text?, .ok finished)
      | .error error stopped =>
        (store.receive location stopped.text?, .error (.ofEmitError path error)) := by
  simp only [compile, compileInto, compileEvents, create_natCast hpos, h, Except.map]
  cases hrun : Emitter.run (codes.map .ok) .empty (.ofSize size hpos) with
  | ok _ finished => cases htext : finished.text? <;> simp [Store.receive, htext]
  | error error stopped => cases htext : stopped.text? <;> simp [Store.receive, htext]

/-- Generation is the same run, of which only the text or the failure is kept. -/
theorem generate_natCast (hpos : 0 < size) :
    generate codes (.int size) =
      match Emitter.run (codes.map .ok) .empty (.ofSize size hpos) with
      | .ok _ finished => .ok (finished.text?.getD "")
      | .error error _ => .error error := by
  have hcast : 0 < (size : Int).toNat := hpos
  cases hrun : Emitter.run (codes.map .ok) .empty (.ofSize size hpos) <;>
    simp only [generate_eq hcast, Int.toNat_natCast, hrun]

end Compile

end TapeCompiler
