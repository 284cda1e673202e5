/-
# Paths

A path is a root and a list of parts. Reading a path drops empty parts and parts
that are a single dot, and keeps parts of two dots; two leading slashes are a
root of their own, and any other number of them is one. A path is shown with
single slashes, and as a dot when nothing is left.

The name of a path is its last part. The suffix of a name starts at its last dot,
unless that dot is the first or the last character of the name.

Paths are Unicode text, and so are their parts and the words of a command line
that name them: no half of a surrogate pair stands alone in them, as it may where
bytes that are no UTF-8 have to be shown as text.
-/

import TapeCompiler.Text.Quoted

namespace TapeCompiler

/-- Where a path starts. -/
inductive Root
  /-- The working directory. -/
  | relative
  /-- The root directory. -/
  | absolute
  /-- The root directory, written with two slashes. -/
  | doubled
  deriving DecidableEq, Repr

/-- The slashes a path starts with. -/
def Root.text : Root → String
  | relative => ""
  | absolute => "/"
  | doubled => "//"

/-- A path in its normal form. -/
structure Path where
  root : Root
  parts : List String
  deriving DecidableEq, Repr

namespace Path

/-- The pieces between slashes, empty ones included. -/
def pieces : List Char → List (List Char)
  | [] => [[]]
  | c :: rest =>
    if c = '/' then [] :: pieces rest
    else
      match pieces rest with
      | [] => [[c]]
      | first :: others => (c :: first) :: others

/-- No piece holds a slash. -/
theorem slash_notMem_of_mem_pieces {chars piece : List Char} (h : piece ∈ pieces chars) :
    '/' ∉ piece := by
  induction chars generalizing piece with
  | nil => simp_all [pieces]
  | cons c rest ih =>
    rw [pieces] at h
    split at h
    · rcases List.mem_cons.1 h with rfl | h
      · simp
      · exact ih h
    · next notSlash =>
      have apart : '/' ≠ c := fun equal => notSlash equal.symm
      split at h
      · rw [List.mem_singleton.1 h]
        exact fun member => apart (List.mem_singleton.1 member)
      · next first others found =>
        rcases List.mem_cons.1 h with rfl | h
        · have clean := ih (found ▸ List.mem_cons_self ..)
          exact fun member => (List.mem_cons.1 member).elim apart clean
        · exact ih (found ▸ List.mem_cons_of_mem _ h)

/-- The root that a number of leading slashes denotes. -/
def rootOfSlashes : Nat → Root
  | 0 => .relative
  | 2 => .doubled
  | _ => .absolute

/-- Whether a piece counts as a part. -/
def isPart (piece : List Char) : Bool := piece != [] && piece != ['.']

/-- The path a text denotes. -/
def ofText (text : String) : Path where
  root := rootOfSlashes (text.toList.takeWhile (· == '/')).length
  parts := ((pieces text.toList).filter isPart).map String.ofList

/-- The parts of a path that was read are no empty texts, no single dots, and hold no slash. -/
theorem part_of_mem_ofText {text part : String} (h : part ∈ (ofText text).parts) :
    part ≠ "" ∧ part ≠ "." ∧ '/' ∉ part.toList := by
  simp only [ofText, List.mem_map, List.mem_filter] at h
  obtain ⟨piece, ⟨member, kept⟩, rfl⟩ := h
  simp only [isPart, Bool.and_eq_true, bne_iff_ne, ne_eq] at kept
  refine ⟨?_, ?_, ?_⟩
  · intro equal
    exact kept.1 (by simpa using congrArg String.toList equal)
  · intro equal
    exact kept.2 (by simpa using congrArg String.toList equal)
  · simpa using slash_notMem_of_mem_pieces member

/-- The text of a path. -/
def text (path : Path) : String :=
  match path.root, path.parts with
  | .relative, [] => "."
  | root, parts => root.text ++ String.intercalate "/" parts

theorem text_of_parts_ne_nil {root : Root} {parts : List String} (h : parts ≠ []) :
    (⟨root, parts⟩ : Path).text = root.text ++ String.intercalate "/" parts := by
  unfold text
  split
  · next heq => exact absurd heq h
  · rfl

/-- The last part; a path without parts has an empty name. -/
def name (path : Path) : String := path.parts.getLast?.getD ""

/-- The path without its last part. -/
def parent (path : Path) : Path := { path with parts := path.parts.dropLast }

/-- The path of `other` as seen from `path`: an `other` with a root of its own stands alone. -/
def join (path other : Path) : Path :=
  match other.root with
  | .relative => { path with parts := path.parts ++ other.parts }
  | _ => other

/-- Whether the path holds a character that no file name may hold. -/
def hasNul (path : Path) : Bool := path.parts.any fun part => part.toList.contains '\x00'

/-! ## Suffixes -/

/-- A name split into its stem and its suffix; the suffix starts with its dot or is empty. -/
def splitSuffix (name : List Char) : List Char × List Char :=
  let behind := name.reverse.takeWhile (· != '.')
  match name.reverse.dropWhile (· != '.') with
  | dot :: before =>
    -- A dot at either end of the name starts no suffix.
    if behind = [] ∨ before = [] then (name, [])
    else (before.reverse, dot :: behind.reverse)
  | [] => (name, [])

/-- The suffix of a path's name. -/
def suffix (path : Path) : String := String.ofList (splitSuffix path.name.toList).2

/-- Why an extension cannot be put on a path. -/
inductive ExtensionError
  /-- The extension is empty or holds a slash. -/
  | badExtension (extension : String)
  /-- The path has no name. -/
  | emptyName (path : Path)
  deriving DecidableEq, Repr

/-- The wording of the refusal. -/
def ExtensionError.message : ExtensionError → String
  | badExtension extension => "Invalid suffix " ++ Text.quote ("." ++ extension)
  | emptyName path => "PosixPath(" ++ Text.quote path.text ++ ") has an empty name"

/-- The path with the suffix of its name replaced, or with one added if it has none. -/
def withExtension (path : Path) (extension : String) : Except ExtensionError Path :=
  if extension.isEmpty ∨ extension.toList.contains '/' then .error (.badExtension extension)
  else
    match path.name.toList with
    | [] => .error (.emptyName path)
    | name =>
      let renamed := String.ofList ((splitSuffix name).1 ++ '.' :: extension.toList)
      .ok { path with parts := path.parts.dropLast ++ [renamed] }

/-- Stem and suffix make up the name. -/
theorem splitSuffix_append (name : List Char) :
    (splitSuffix name).1 ++ (splitSuffix name).2 = name := by
  unfold splitSuffix
  split
  · next dot before found =>
    dsimp only
    split
    · simp
    · have whole : name.reverse.takeWhile (· != '.') ++ dot :: before = name.reverse := by
        rw [← found, List.takeWhile_append_dropWhile]
      have := congrArg List.reverse whole
      simpa using this
  · simp

@[simp]
theorem parent_join_relative (path : Path) (part : String) :
    (path.join ⟨.relative, [part]⟩).parent = path := by
  simp [join, parent]

end Path

end TapeCompiler
