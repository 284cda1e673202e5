/-
# The file system

A store holds directories and regular files, each at a location: the names on
the way down from the root directory. Names and paths are Unicode text, without
lone halves of surrogate pairs, so a name whose bytes are no UTF-8 does not occur.
There are no links and no permissions. A path is followed from the working
directory, or from the root, one part at a time; every place passed on the way
must be a directory that exists.

Operations return a new store or the reason why they fail. They change the node
at one location and no other.
-/

import TapeCompiler.Fault
import TapeCompiler.Headroom
import TapeCompiler.Path

namespace TapeCompiler

/-- The names on the way from the root directory to a place. -/
abbrev Location := List String

/-- What stands at a location. -/
inductive Node
  | directory
  | file (bytes : List UInt8)
  deriving DecidableEq, Repr

/-- A file system with a working directory. The root directory is always there and has no entry
of its own. -/
structure Store where
  entries : List (Location × Node)
  workingDirectory : Location
  deriving DecidableEq, Repr

/-- Why a path cannot be used. -/
inductive AccessError
  /-- The path holds a NUL character. -/
  | embeddedNul
  /-- The file system refuses. -/
  | fault (fault : IoFault)
  deriving DecidableEq, Repr

namespace Store

/-- The node at a location. -/
def node? (store : Store) (location : Location) : Option Node :=
  match location with
  | [] => some .directory
  | _ => store.entries.lookup location

/-- Entries with the node at one location replaced, or added behind the others. -/
def setEntry (location : Location) (node : Node) :
    List (Location × Node) → List (Location × Node)
  | [] => [(location, node)]
  | entry :: rest =>
    if entry.1 = location then (location, node) :: rest else entry :: setEntry location node rest

/-- The store with a node put at a location. -/
def set (store : Store) (location : Location) (node : Node) : Store :=
  { store with entries := setEntry location node store.entries }

/-- The greatest length of a name, in bytes. -/
def nameLimit : Nat := 255

/-- The length of a path, in bytes, from which on it is too long. -/
def pathLimit : Nat := 4096

/-- One step along a path. Two dots lead to the directory above; above the root directory is
the root directory. -/
def enter (store : Store) (location : Location) (part : String) : Except IoFault Location :=
  match store.node? location with
  | none => .error .noSuchFile
  | some (.file _) => .error .notDirectory
  | some .directory =>
    if part = ".." then .ok location.dropLast
    else if nameLimit < part.utf8ByteSize then .error .nameTooLong
    else .ok (location ++ [part])

/-- The location a path leads to. The place itself need not exist. -/
def locate (store : Store) (path : Path) : Except IoFault Location :=
  if pathLimit ≤ path.text.utf8ByteSize then .error .nameTooLong
  else
    let start := match path.root with
      | .relative => store.workingDirectory
      | _ => []
    path.parts.foldlM store.enter start

/-- The location of a path and the node there, if there is one. -/
def find (store : Store) (path : Path) : Except AccessError (Location × Option Node) :=
  if path.hasNul then .error .embeddedNul
  else
    match store.locate path with
    | .error fault => .error (.fault fault)
    | .ok location => .ok (location, store.node? location)

/-- The bytes of a file. -/
def contents (store : Store) (path : Path) : Except AccessError (List UInt8) := do
  match (← store.find path).2 with
  | some (.file bytes) => return bytes
  | some .directory => throw (.fault .isDirectory)
  | none => throw (.fault .noSuchFile)

/-- Where a file is written: a file that exists already, or one to be made. -/
def openForWriting (store : Store) (path : Path) : Except AccessError Location := do
  match ← store.find path with
  | (_, some .directory) => throw (.fault .isDirectory)
  | (location, _) => return location

/-- The node that a path leads to, if there is one. A path that is too long is an error; any
other path that cannot be followed leads to nothing. -/
def look (store : Store) (path : Path) : Except IoFault (Option Node) :=
  match store.find path with
  | .ok (_, node) => .ok node
  | .error (.fault fault) => if fault = .nameTooLong then .error fault else .ok none
  | .error .embeddedNul => .ok none

/-- Whether something is there. -/
def pathExists (store : Store) (path : Path) : Except IoFault Bool :=
  (store.look path).map Option.isSome

/-- Whether a directory is there. -/
def isDirectory (store : Store) (path : Path) : Except IoFault Bool :=
  (store.look path).map fun node => decide (node = some .directory)

/-- The names in a directory. -/
def children (store : Store) (location : Location) : List String :=
  store.entries.filterMap fun entry =>
    match entry.1.getLast? with
    | some name => if entry.1.dropLast = location then some name else none
    | none => none

/-- The names in the directory a path leads to. -/
def list (store : Store) (path : Path) : Except AccessError (List String) := do
  match ← store.find path with
  | (location, some .directory) => return store.children location
  | (_, some (.file _)) => throw (.fault .notDirectory)
  | (_, none) => throw (.fault .noSuchFile)

/-! ## Making directories -/

/-- Make one directory; its parent must be there. -/
def makeDirectory (store : Store) (path : Path) : Except AccessError Store := do
  match ← store.find path with
  | (location, none) => return store.set location .directory
  | (_, some _) => throw (.fault .fileExists)

/-- Why directories could not be made. -/
inductive MakingError
  /-- This directory could not be made. -/
  | access (path : Path) (error : AccessError)
  /-- More directories in a row are missing than there is room for. -/
  | tooManyMissing
  deriving DecidableEq, Repr

/-- What making directories leaves: the store, which may have new directories also after a
failure, and why it failed. -/
abbrev Making := Store × Except MakingError Unit

/-- Make one directory. A directory that is there already will do, and a missing parent is for
the caller to settle. -/
def makeOrFind? (store : Store) (path : Path) : Option Making :=
  match store.makeDirectory path with
  | .ok made => some (made, .ok ())
  | .error .embeddedNul => some (store, .error (.access path .embeddedNul))
  | .error (.fault fault) =>
    if fault = .noSuchFile then none
    else
      -- What is there already must be a directory.
      match store.find path with
      | .ok (_, some .directory) => some (store, .ok ())
      | _ => some (store, .error (.access path (.fault fault)))

/-- Make the directory that a root and some parts name, and those above it that are missing, of
which there may be `room`. The parts come with the last one first. -/
def makeDirectoriesFrom (root : Root) : List String → Nat → Store → Making
  | [], _, store => (store, .ok ())
  | part :: above, room, store =>
    let path : Path := ⟨root, (part :: above).reverse⟩
    match store.makeOrFind? path with
    | some making => making
    | none =>
      if room = 0 then (store, .error .tooManyMissing)
      else
        -- The parent is missing, so it comes first; then this directory is tried again.
        match makeDirectoriesFrom root above (room - 1) store with
        | (made, .error error) => (made, .error error)
        | (made, .ok ()) =>
          (made.makeOrFind? path).getD (made, .error (.access path (.fault .noSuchFile)))

/-- Make the directory a path names, and those above it that are missing. -/
def makeDirectories (store : Store) (path : Path)
    (room : Nat := Headroom.usual.directories) : Making :=
  makeDirectoriesFrom path.root path.parts.reverse room store

/-! ## What operations change -/

/-- The files of a store that another store does not hold with the same bytes, each by its
location. -/
def filesNotIn (store before : Store) : List (Location × List UInt8) :=
  store.entries.filterMap fun entry =>
    match entry.2 with
    | .directory => none
    | .file bytes =>
      if before.node? entry.1 = some (.file bytes) then none else some (entry.1, bytes)

theorem lookup_setEntry (location other : Location) (node : Node)
    (entries : List (Location × Node)) :
    (setEntry location node entries).lookup other =
      if other = location then some node else entries.lookup other := by
  induction entries with
  | nil =>
    by_cases h : other = location
    · simp [setEntry, h]
    · have apart : (other == location) = false := by simpa using h
      simp [setEntry, List.lookup_cons, apart, h]
  | cons entry rest ih =>
    obtain ⟨place, old⟩ := entry
    by_cases h : other = place
    · subst h
      by_cases same : other = location <;> simp [setEntry, same]
    · have apart : (other == place) = false := by simpa using h
      by_cases same : place = location
      · subst same
        simp [setEntry, List.lookup_cons, apart, h]
      · simp [setEntry, List.lookup_cons, apart, same, ih]

/-- A node put at a location is found there, and every other location keeps its node. -/
theorem node?_set (store : Store) (location other : Location) (node : Node)
    (h : location ≠ []) :
    (store.set location node).node? other =
      if other = location then some node else store.node? other := by
  unfold node?
  split
  · simp [Ne.symm h]
  · exact lookup_setEntry ..

end Store

end TapeCompiler
