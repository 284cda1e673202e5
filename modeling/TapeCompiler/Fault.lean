/-
# Why an operation on a file failed

A failure of the file system has a number and a text, or the text alone. Shown
on its own it carries the number; as a reason inside another message it is the
text, unless the text is empty.

A file may also fail after some operations succeeded. A quota says how many more
succeed and what the failure is from then on.
-/

import TapeCompiler.Text.Quoted

namespace TapeCompiler

/-- A failure reported by the file system. -/
structure IoFault where
  number : Option Int
  text : String
  deriving DecidableEq, Repr

namespace IoFault

/-- The failure on its own. -/
def shown (fault : IoFault) : String :=
  match fault.number with
  | some n => "[Errno " ++ toString n ++ "] " ++ fault.text
  | none => fault.text

/-- The failure as the reason inside another message. -/
def reason (fault : IoFault) : String :=
  match fault.number with
  | some _ => if fault.text.isEmpty then fault.shown else fault.text
  | none => fault.shown

/-- The failure together with the path it concerns. -/
def shownAt (fault : IoFault) (path : String) : String :=
  fault.shown ++ ": " ++ Text.quote path

/-- A component of the path does not exist. -/
def noSuchFile : IoFault := ⟨some 2, "No such file or directory"⟩

/-- The file exists already. -/
def fileExists : IoFault := ⟨some 17, "File exists"⟩

/-- A component that is no directory is used as one. -/
def notDirectory : IoFault := ⟨some 20, "Not a directory"⟩

/-- A directory is opened as a file. -/
def isDirectory : IoFault := ⟨some 21, "Is a directory"⟩

/-- A component of the path, or the path itself, is too long. -/
def nameTooLong : IoFault := ⟨some 36, "File name too long"⟩

end IoFault

/-- The message of a path that holds a NUL character. -/
def embeddedNulMessage : String := "embedded null byte"

/-- How many more operations succeed, and how the later ones fail. -/
structure Quota where
  left : Nat
  fault : IoFault
  deriving DecidableEq, Repr

namespace Quota

/-- Take one operation off a quota; without a quota every operation succeeds. A quota that is
used up fails from then on. -/
def spend : Option Quota → Except IoFault (Option Quota)
  | none => .ok none
  | some ⟨0, fault⟩ => .error fault
  | some ⟨left + 1, fault⟩ => .ok (some ⟨left, fault⟩)

end Quota

end TapeCompiler
