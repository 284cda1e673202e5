/-
# The compiler as a program

The run itself works on a store. This module copies into a store what the disk
holds along the two paths that a run looks at, and puts on the disk the files that
the run changed.
-/

import TapeCompiler.CommandLine.Run

namespace TapeCompiler.Main

/-- The places that a path passes, each by its location. -/
def passed (start : Location) (path : Path) : List Location :=
  let enter := fun (location : Location) part =>
    if part = ".." then location.dropLast else location ++ [part]
  let places := path.parts.foldl
    (fun places part => enter (places.head?.getD []) part :: places)
    [match path.root with
      | .relative => start
      | _ => []]
  places.flatMap fun location => (List.range (location.length + 1)).map location.take

/-- The text of a location. -/
def locationText (location : Location) : String :=
  Path.text ⟨.absolute, location⟩

/-- Copy one place from the disk into a store. -/
def copyPlace (store : Store) (location : Location) : IO Store := do
  let place := (← IO.currentDir) / locationText location
  if (store.node? location).isSome then return store
  else if ← place.isDir then return store.set location .directory
  else if ← place.pathExists then
    return store.set location (.file (← IO.FS.readBinFile place).toList)
  else return store

/-- The paths that a run with some arguments looks at. -/
def pathsOf (arguments : List String) : List Path :=
  match CommandLine.Settings.read arguments with
  | .error _ => []
  | .ok settings =>
    match settings.outputPath with
    | .ok (.value output) => [settings.file, output]
    | _ => [settings.file]

/-- Run the compiler on the disk. -/
def execute (arguments : List String) : IO UInt32 := do
  let here := (Path.ofText (← IO.currentDir).toString).parts
  let places := (pathsOf arguments).flatMap fun path =>
    if path.hasNul then [] else passed here path
  let store ← places.foldlM copyPlace ⟨[], here⟩
  let report := CommandLine.run CommandLine.defaultLogName store arguments
  for (location, bytes) in report.store.filesNotIn store do
    IO.FS.writeBinFile (locationText location) ⟨bytes.toArray⟩
  IO.print report.out
  IO.eprint report.err
  match report.ending with
  | .exit code => return code.toUInt32
  | .escaped failure =>
    IO.eprintln ("bfc: " ++ failure.message)
    return 1

end TapeCompiler.Main

/-- The entry point. -/
def main (arguments : List String) : IO UInt32 :=
  TapeCompiler.Main.execute arguments
