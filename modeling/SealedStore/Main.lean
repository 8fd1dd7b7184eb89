import SealedStore.CommandLine.Environment
import SealedStore.CommandLine.Run
import SealedStore.Facility.Seeded
import SealedStore.Store.Bucket

/-!
# The command line

Arguments, environment, files and random seed come from the system. No network is at hand here, so
bucket and key service cannot be reached.
-/

namespace SealedStore.Main

/-- The reason that a file was not read or written. -/
def fileError : IO.Error → FileError
  | .noFileOrDirectory .. => .notFound
  | .inappropriateType _ code _ => if code = 21 ∨ code = -21 then .isFolder else .notFolder
  | .invalidArgument _ code details =>
      if code = 36 ∨ code = -36 then .nameTooLong else .other details
  | error => .other (toString error)

/-- A result, or the reason why there is none. -/
def attempt {α : Type} (action : IO α) : IO (Except FileError α) := do
  match ← action.toBaseIO with
  | .ok value => return .ok value
  | .error error => return .error (fileError error)

/-- The files of the system. -/
def files : Files IO where
  read name := attempt do return (← IO.FS.readBinFile name).toList
  write name contents := attempt (IO.FS.writeBinFile name ⟨contents.toArray⟩)

/-- What can be reached from here. -/
def surroundings : Surroundings IO Unit where
  files := files
  bucket _ := Bucket.unreachable "no network"
  service := .unreachable "no network"

/-- A key for the random source. -/
def seed : IO Aes.Key := do
  let bytes ← IO.getRandomBytes 32
  return BitVec.ofNat 256 (Bytes.toNat bytes.toList)

/-- The variables of the process. -/
def environment : IO (List (String × String)) := do
  return Environment.ofBlock (← IO.FS.readBinFile "/proc/self/environ").toList

/-- How the commands are used. -/
def usage : String :=
  "put FILE KEY [--matdesc KEY=VALUE]... | get KEY FILE"

/-- The text with every line set in. -/
def indented (shown : String) : String :=
  "\n".intercalate ((shown.splitOn "\n").map ("    " ++ ·))

/-- Runs a command and says how it went. -/
def run (command : Command) : IO UInt32 := do
  let world : World Unit := ⟨.closed (.ofSeed (← seed)), ()⟩
  match ← command.runIn surroundings (← environment) world with
  | (.ok report, _) =>
      IO.println report.message
      return 0
  | (.error error, _) =>
      IO.eprintln error.headline
      if let some cause := error.cause? then
        IO.eprintln s!"\nCaused by:\n{indented cause}"
      return 1

end SealedStore.Main

open SealedStore in
/-- Encrypts files into a bucket and decrypts them back out. -/
def main (arguments : List String) : IO UInt32 := do
  match Request.ofArguments arguments with
  | .ok .help =>
      IO.println Main.usage
      return 0
  | .ok .version =>
      IO.println "0.1.0"
      return 0
  | .ok (.run command) => Main.run command
  | .error error =>
      IO.eprintln s!"error: {error.message}\n\n{Main.usage}"
      return 2
