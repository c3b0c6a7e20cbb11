import SpendPlanner.Bytes

/-!
# Files

A file is read as text, which fails if there is none that can be read at its path, or if its bytes
are not UTF-8.
-/

namespace SpendPlanner

/-- Why a file could not be read as text. -/
inductive FileError where
  | notFound
  | notADirectory
  | isADirectory
  /-- The path, or a name in it, has more bytes than the system takes. -/
  | nameTooLong
  | permissionDenied
  | notUtf8
  deriving DecidableEq

def FileError.message : FileError → String
  | notFound => "No such file or directory (os error 2)"
  | notADirectory => "Not a directory (os error 20)"
  | isADirectory => "Is a directory (os error 21)"
  | nameTooLong => "File name too long (os error 36)"
  | permissionDenied => "Permission denied (os error 13)"
  | notUtf8 => "stream did not contain valid UTF-8"

/-- The text a file's bytes stand for. -/
def utf8Text (bytes : Bytes) : Except FileError String :=
  match String.fromUTF8? ⟨bytes.toArray⟩ with
  | some text => .ok text
  | none => .error .notUtf8

end SpendPlanner
