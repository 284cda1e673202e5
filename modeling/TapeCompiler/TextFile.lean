/-
# Text files

A text file holds UTF-8. Reading turns carriage returns into line feeds; writing
leaves the text as it is and makes the directories above the file first, which
stay also when the file itself cannot be written.
-/

import TapeCompiler.Store
import TapeCompiler.Text.Lines
import TapeCompiler.Text.Utf8

namespace TapeCompiler

/-- Why a text file could not be read or written. -/
inductive FileError
  | fault (path : Path) (fault : IoFault)
  | embeddedNul
  | encoding (error : Text.Utf8Error)
  /-- More directories above the file are missing than there is room for. -/
  | tooManyMissing
  deriving DecidableEq, Repr

namespace FileError

/-- The wording of a failure. -/
def message : FileError → String
  | fault path reason => reason.shownAt path.text
  | embeddedNul => embeddedNulMessage
  | encoding error => error.message
  | tooManyMissing => "maximum recursion depth exceeded while calling a Python object"

/-- The failure to use a path. -/
def ofAccess (path : Path) : AccessError → FileError
  | .embeddedNul => .embeddedNul
  | .fault reason => .fault path reason

/-- The failure to make directories. -/
def ofMaking : Store.MakingError → FileError
  | .access path error => ofAccess path error
  | .tooManyMissing => .tooManyMissing

end FileError

namespace TextFile

/-- The text of a file. -/
def read (store : Store) (path : Path) : Except FileError String :=
  match store.contents path with
  | .error error => .error (.ofAccess path error)
  | .ok bytes =>
    match Text.decodeUtf8 bytes with
    | .error error => .error (.encoding error)
    | .ok text => .ok (Text.unifyLineEnds text)

/-- Write a text to a file and say what became of it. -/
def write (store : Store) (path : Path) (text : String)
    (room : Nat := Headroom.usual.directories) : Store × Except FileError Unit :=
  match store.makeDirectories path.parent room with
  | (prepared, .error error) => (prepared, .error (.ofMaking error))
  | (prepared, .ok ()) =>
    match prepared.openForWriting path with
    | .error error => (prepared, .error (.ofAccess path error))
    | .ok location => (prepared.set location (.file (Text.encodeUtf8 text)), .ok ())

end TextFile

end TapeCompiler
