/-
# Checking and regenerating golden cases

A run goes through the cases named on its command line, or through all of them.
It prints one line for a case in order and the diff for a case that drifted, and
ends with a code that says whether any did. A failure ends the run at once; what
was printed and regenerated before it stays.
-/

import TapeCompiler.CommandLine.Run
import TapeCompiler.Golden.Case

namespace TapeCompiler.Golden

open CommandLine (Interface Report Ending Stop)

/-- The settings of one run. -/
structure Settings where
  names : List String
  update : Bool
  deriving DecidableEq, Repr

/-- The help text below the usage line. -/
def helpText : String :=
  String.join
    ["Check or regenerate golden .asm files\n",
     "\n",
     "positional arguments:\n",
     "  names       golden case names (default: all)\n",
     "\n",
     "options:\n",
     "  -h, --help  show this help message and exit\n",
     "  --update    rewrite program.asm from program.bf\n"]

/-- The command line of a run. -/
def interface : Interface Settings where
  program := "golden_tests.py"
  usage := "usage: golden_tests.py [-h] [--update] [names ...]"
  help := helpText
  options :=
    [⟨["-h", "--help"], .help⟩,
     ⟨["--update"], .flag fun settings => { settings with update := true }⟩]
  operand := .many fun names settings => { settings with names := names }

/-- What a run has done so far. -/
structure Progress where
  store : Store
  out : String
  drifted : Nat
  deriving DecidableEq, Repr

/-- Print a line. -/
def Progress.print (progress : Progress) (line : String) : Progress :=
  { progress with out := progress.out ++ line ++ "\n" }

/-- Work on one case. -/
def step (golden : Directory) (update : Bool) (progress : Progress) (name : String) :
    Progress × Except Failure Unit :=
  if update then
    match regenerate progress.store golden name with
    | (after, .ok ()) => ({ progress with store := after }.print ("Updated: " ++ name), .ok ())
    | (after, .error failure) => ({ progress with store := after }, .error failure)
  else
    match check progress.store golden name with
    | .error failure => (progress, .error failure)
    | .ok none => (progress.print ("OK: " ++ name), .ok ())
    | .ok (some diff) =>
      if diff.isEmpty then (progress.print ("OK: " ++ name), .ok ())
      else ({ progress with drifted := progress.drifted + 1 }.print diff, .ok ())

/-- Work on cases in order, up to the first failure. -/
def steps (golden : Directory) (update : Bool) : Progress → List String →
    Progress × Except Failure Unit
  | progress, [] => (progress, .ok ())
  | progress, name :: rest =>
    match step golden update progress name with
    | (after, .ok ()) => steps golden update after rest
    | (after, .error failure) => (after, .error failure)

/-- Run with settings. Without names, all cases are meant. -/
def runSettings (golden : Directory) (settings : Settings) (store : Store) : Report Failure :=
  let names := if settings.names.isEmpty then caseNames store golden else .ok settings.names
  match names with
  | .error failure => ⟨.escaped failure, "", "", store⟩
  | .ok names =>
    match steps golden settings.update ⟨store, "", 0⟩ names with
    | (after, .ok ()) =>
      ⟨.exit (if after.drifted = 0 then 0 else 1), after.out, "", after.store⟩
    | (after, .error failure) => ⟨.escaped failure, after.out, "", after.store⟩

/-- Run with command line arguments. -/
def run (golden : Directory) (store : Store) (arguments : List String) : Report Failure :=
  match interface.read ⟨[], false⟩ arguments with
  | .ok settings => runSettings golden settings store
  | .error stop =>
    let (code, out, err) := interface.respond stop
    ⟨.exit code, out, err, store⟩

/-- The directory of all cases, for a run that is started on its own. -/
def goldenDirectory : Directory where
  path := ⟨.relative, ["golden"]⟩
  room := .usual

end TapeCompiler.Golden
