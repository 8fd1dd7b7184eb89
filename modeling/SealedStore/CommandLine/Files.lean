import SealedStore.Bytes

/-!
# Files

What a command asks of the file system: a whole file read, a whole file written.
-/

namespace SealedStore

/-- Why a file was not read or written. -/
inductive FileError where
  /-- There is nothing under the name. -/
  | notFound
  /-- A folder is in the place of the file. -/
  | isFolder
  /-- A file is in the place of a folder. -/
  | notFolder
  /-- The name is too long. -/
  | nameTooLong
  | other (reason : String)
  deriving DecidableEq, Repr

/-- The wording of the error. -/
def FileError.message : FileError → String
  | notFound => "No such file or directory (os error 2)"
  | isFolder => "Is a directory (os error 21)"
  | notFolder => "Not a directory (os error 20)"
  | nameTooLong => "File name too long (os error 36)"
  | other reason => reason

/-- How files are read and written. -/
structure Files (m : Type → Type) where
  read : (name : String) → m (Except FileError Bytes)
  write : (name : String) → Bytes → m (Except FileError Unit)

end SealedStore
