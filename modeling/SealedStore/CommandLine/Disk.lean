import SealedStore.CommandLine.Files
import SealedStore.Text.Utf8
import SealedStore.TextMap

/-!
# A disk in memory

Files where no disk of a machine is wanted. A disk knows what stands at each of its places; paths
are followed part by part, from its root or from the folder of work.
-/

namespace SealedStore

/-- A place on a disk: the names of the folders on the way from the root, and its own. -/
abbrev Place := List String

/-- What stands at a place. -/
inductive Entry where
  | folder
  | file (contents : Bytes)
  /-- A file that takes everything and holds nothing. -/
  | sink
  /-- What is there, but is not opened, with the reason. -/
  | shut (reason : FileError)
  /-- Another name of a folder. -/
  | link (folder : Place)
  deriving DecidableEq, Repr

/-- A disk: its entries by path, and the folder where relative paths begin. -/
structure Disk where
  entries : TextMap Entry
  work : Place

namespace Disk

/-! ## Places -/

/-- The path of a place, from the root. -/
def path (place : Place) : String :=
  String.join (place.map ("/" ++ ·))

/-- What stands at a place. At the root there is always a folder. -/
def entry? (disk : Disk) (place : Place) : Option Entry :=
  if place = [] then some .folder else disk.entries.get? (path place)

/-- The disk with the entry at a place set. -/
def setEntry (disk : Disk) (place : Place) (entry : Entry) : Disk :=
  { disk with entries := disk.entries.insert (path place) entry }

/-! ## Paths -/

/-- The parts of a path between its slashes. -/
def parts : List Char → List (List Char)
  | [] => [[]]
  | char :: rest =>
      match parts rest with
      | [] => [[char]]
      | first :: others => if char = '/' then [] :: first :: others else (char :: first) :: others

/-- A name is at most so many bytes long. -/
def maxNameLength : Nat := 255

/-- A path is at most so many bytes long. -/
def maxPathLength : Nat := 4095

/-- Whether the names in a folder have the greatest length. In the trees where a system tells of
itself no name is too long: one that nothing has is looked for and not found. -/
def boundsNames (folder : Place) : Bool :=
  folder.head? ≠ some "proc" ∧ folder.head? ≠ some "sys"

/-- What a path is followed for. -/
inductive Purpose where
  | reading
  | writing
  deriving DecidableEq

/-- Where a path has led. -/
inductive Target where
  | folder
  | file (place : Place) (contents : Bytes)
  | sink
  /-- Nothing is at the place, but the folder that it would be in is there. -/
  | free (place : Place)
  deriving DecidableEq

/-- Follows the parts of a path from a folder. Empty parts between slashes and single dots lead
nowhere, double dots to the folder around. What has a part behind it must be a folder, and no folder
comes to be by writing to a name with slashes behind it. -/
def follow (disk : Disk) (purpose : Purpose) (place : Place) :
    List (List Char) → Except FileError Target
  | [] => .ok .folder
  | part :: rest =>
      if part = [] ∨ part = ['.'] then follow disk purpose place rest
      else if part = ['.', '.'] then follow disk purpose place.dropLast rest
      else
        let name := String.ofList part
        let next := place ++ [name]
        let slashed := rest ≠ [] ∧ rest.all (· = [])
        if purpose = .writing ∧ slashed then .error .isFolder
        else if boundsNames place ∧ maxNameLength < (Utf8.encode name).length then
          .error .nameTooLong
        else
          match disk.entry? next with
          | some .folder => follow disk purpose next rest
          | some (.link folder) => follow disk purpose folder rest
          | some (.file contents) =>
              if rest = [] then .ok (.file next contents) else .error .notFolder
          | some .sink => if rest = [] then .ok .sink else .error .notFolder
          | some (.shut reason) => .error (if rest = [] then reason else .notFolder)
          | none => if rest = [] then .ok (.free next) else .error .notFound

/-- Where a path leads. A path that begins with a slash begins at the root. -/
def locate (disk : Disk) (purpose : Purpose) (path : String) : Except FileError Target :=
  if path.isEmpty then .error .notFound
  else if maxPathLength < (Utf8.encode path).length then .error .nameTooLong
  else
    match parts path.toList with
    | [] :: rest => disk.follow purpose [] rest
    | all => disk.follow purpose disk.work all

/-! ## Reading and writing -/

/-- The contents of the file that a path leads to. -/
def read (disk : Disk) (path : String) : Except FileError Bytes := do
  match ← disk.locate .reading path with
  | .folder => .error .isFolder
  | .file _ contents => .ok contents
  | .sink => .ok []
  | .free _ => .error .notFound

/-- The disk with the file that a path leads to written. -/
def write (disk : Disk) (path : String) (contents : Bytes) : Except FileError Disk := do
  match ← disk.locate .writing path with
  | .folder => .error .isFolder
  | .file place _ | .free place => .ok (disk.setEntry place (.file contents))
  | .sink => .ok disk

/-- The files of the disk that is carried along. -/
def files : Files (StateM Disk) where
  read path := do return (← get).read path
  write path contents := do
    match (← get).write path contents with
    | .ok disk =>
        set disk
        return .ok ()
    | .error error => return .error error

end Disk

end SealedStore
