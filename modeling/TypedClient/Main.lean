import Std.Time.Zoned
import TypedClient.Command.Arguments
import TypedClient.Command.Run

/-! The program, which carries out a command on the system it is started on. -/

namespace TypedClient

open Text

def stringOf (text : Text) : String := String.ofList text

/-- Why the system refuses a file, by the number of its error. -/
def FileError.ofSystem : IO.Error → FileError
  | .noFileOrDirectory .. => .notFound
  | .alreadyExists .. => .alreadyThere
  | .inappropriateType _ 20 _ => .notFolder
  | .inappropriateType _ 21 _ => .isFolder
  | error => .other (toString error).toList

def attempt {α : Type} (action : IO α) : IO (Except FileError α) := do
  return (← action.toBaseIO).mapError .ofSystem

def readBytes (path : Text) : IO Bytes := do
  return (← IO.FS.readBinFile (stringOf path)).toList

def writeBytes (path : Text) (bytes : Bytes) : IO Unit :=
  IO.FS.writeBinFile (stringOf path) (ByteArray.mk bytes.toArray)

def folderNames (path : Text) : IO (List Text) := do
  let entries ← (← IO.FS.realPath (stringOf path)).readDir
  let folders ← entries.toList.filterM fun entry => entry.path.isDir
  return Table.sorted (folders.map fun entry => entry.fileName.toList)

def twoDigits (n : Nat) : Text := if n < 10 then '0' :: ofNat n else ofNat n

def timeOfDay : IO Text := do
  let time ← Std.Time.PlainTime.now
  return join ":" ([time.hour.toNat, time.minute.toNat, time.second.toNat].map twoDigits)

instance : Host IO where
  readFile path := attempt (readBytes path)
  isThere path := return (← attempt (IO.FS.realPath (stringOf path))).toBool
  foldersIn path := attempt (folderNames path)
  makeFolders path := attempt (IO.FS.createDirAll (stringOf path))
  writeFile path bytes := attempt (writeBytes path bytes)
  copyFile source target := attempt do writeBytes target (← readBytes source)
  printLine line :=
    match line.channel with
    | .output => IO.println (stringOf line.text)
    | .errors => IO.eprintln (stringOf line.text)
  clock := timeOfDay

def environment : IO Environment := do
  return {
    takesColor := (← (← IO.getStdout).isTty) && (← IO.getEnv "NO_COLOR").isNone
    colors := (← IO.getEnv "COLORFGBG").map String.toList }

/-- Carries out a command line and returns the exit code. -/
def runCommand (line : CommandLine) : IO UInt32 := do
  let action : Acting IO Unit := line.perform (← environment)
  match ← action.run with
  | .ok _ => return 0
  | .error error =>
    IO.eprintln (stringOf error.report)
    return 1

def refuse (error : UsageError) : IO UInt32 := do
  let text := stringOf error.message
  if error.exitCode = 0 then IO.println text else IO.eprintln text
  return error.exitCode.toUInt32

end TypedClient

def main (arguments : List String) : IO UInt32 :=
  match TypedClient.CommandLine.ofArguments (arguments.map String.toList) with
  | .ok line => TypedClient.runCommand line
  | .error error => TypedClient.refuse error
