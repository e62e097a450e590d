import TypedClient.Command.Error
import TypedClient.Files.Tree
import TypedClient.Terminal.Line

/-! What commands ask of the system they run on, and a system held in memory. -/

namespace TypedClient

open Text

class Host (m : Type → Type) where
  readFile (path : Text) : m (Except FileError Bytes)
  isThere (path : Text) : m Bool
  /-- The names of the folders in a folder. -/
  foldersIn (path : Text) : m (Except FileError (List Text))
  /-- Makes a folder and the folders above it. -/
  makeFolders (path : Text) : m (Except FileError Unit)
  writeFile (path : Text) (bytes : Bytes) : m (Except FileError Unit)
  copyFile (source target : Text) : m (Except FileError Unit)
  printLine (line : Line) : m Unit
  /-- The time of day. -/
  clock : m Text

/-- A command on a system: it acts, and it may fail. -/
abbrev Acting (m : Type → Type) := ExceptT CommandError m

namespace Acting

variable {m : Type → Type} [Monad m] {α : Type}

/-- An action whose failure fails the command. -/
def ofAction (explain : FileError → CommandError) (action : m (Except FileError α)) :
    Acting m α :=
  .mk do return (← action).mapError explain

def ofExcept {ε : Type} (explain : ε → CommandError) (result : Except ε α) : Acting m α :=
  .mk (pure (result.mapError explain))

instance [Host m] : Host (Acting m) where
  readFile path := .lift (Host.readFile path)
  isThere path := .lift (Host.isThere path)
  foldersIn path := .lift (Host.foldersIn path)
  makeFolders path := .lift (Host.makeFolders path)
  writeFile path bytes := .lift (Host.writeFile path bytes)
  copyFile source target := .lift (Host.copyFile source target)
  printLine line := .lift (Host.printLine line)
  clock := .lift Host.clock

end Acting

/-- A system held in memory: its files, a clock that stands still, and the lines printed. -/
structure Session where
  files : FileTree
  time : Text
  lines : List Line
  deriving DecidableEq, Repr

namespace Session

def start (files : FileTree) (time : Text) : Session := ⟨files, time, []⟩

/-- What has been printed on a channel. -/
def printed (session : Session) (channel : Channel) : Text :=
  (session.lines.filter fun line => line.channel = channel).flatMap fun line => line.text ++ ['\n']

/-- An action that looks at the files. -/
def look {α : Type} (f : FileTree → α) : StateM Session α := do return f (← get).files

/-- An action that changes the files, unless it fails. -/
def change (f : FileTree → Except FileError FileTree) : StateM Session (Except FileError Unit) := do
  match f (← get).files with
  | .ok files =>
    modify fun session => { session with files }
    return .ok ()
  | .error error => return .error error

instance : Host (StateM Session) where
  readFile path := look (·.read path)
  isThere path := look (·.exists? path)
  foldersIn path := look (·.foldersIn path)
  makeFolders path := change (·.makeFolders path)
  writeFile path bytes := change (·.write path bytes)
  copyFile source target := change (·.copy source target)
  printLine line := modify fun session => { session with lines := session.lines ++ [line] }
  clock := do return (← get).time

end Session

end TypedClient
