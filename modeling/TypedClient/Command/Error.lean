import TypedClient.Config.Check
import TypedClient.Description.Model
import TypedClient.Files.Error

/-! Why commands fail. -/

namespace TypedClient

open Text

inductive CommandError
  | openDescription (path : Text) (error : FileError)
  | decodeDescription (fault : Utf8.Fault)
  | duplicateOperation (duplicate : DuplicateOperation)
  | readConfig (path : Text) (error : FileError)
  | parseConfig (path document : Text) (failure : Json.Failure)
  | config (error : ConfigError)
  | readFolder (path : Text) (error : FileError)
  | makeFolder (error : FileError)
  | writeFile (path : Text) (error : FileError)
  | copyFile (source target : Text) (error : FileError)
  | aborted (servers : List Text)
  deriving DecidableEq, Repr

namespace CommandError

/-- A description is opened through two layers, each of which names the cause below it. -/
def openChain (path : Text) (error : FileError) : List Text :=
  ["cannot open interface description " ++ path,
    path ++ ": unable to open file: " ++ error.message ++ ": IO error",
    error.message ++ ": IO error",
    error.message]

/-- What went wrong and its causes, each the cause of the one before. -/
def chain : CommandError → List Text
  | openDescription path error => openChain path error
  | decodeDescription fault => ["interface description is not valid UTF-8", fault.message]
  | duplicateOperation duplicate => [duplicate.message]
  | readConfig path error => ["cannot read config file " ++ path, error.message]
  | parseConfig path document failure =>
    ["in " ++ path, ConfigFile.failureMessage document failure]
  | config error => [error.message]
  | readFolder path error => ["cannot read " ++ path, error.message]
  | makeFolder error => [error.message]
  | writeFile path error => ["cannot write " ++ path, error.message]
  | copyFile source target error =>
    ["cannot copy " ++ source ++ " to " ++ target, error.message]
  | aborted servers => ["Generation aborted for: " ++ join ", " servers]

/-- The whole chain on one line. -/
def message (error : CommandError) : Text := join ": " error.chain

def numbered (causes : List Text) : List Text :=
  causes.mapIdx fun index cause => "    " ++ ofNat index ++ ": " ++ cause

/-- The chain on lines of its own. -/
def report (error : CommandError) : Text :=
  match error.chain with
  | [] => "Error"
  | [only] => "Error: " ++ only
  | [first, cause] => join "\n" ["Error: " ++ first, [], "Caused by:", "    " ++ cause]
  | first :: causes =>
    join "\n" (["Error: " ++ first, ([] : Text), "Caused by:"] ++ numbered causes)

end CommandError

end TypedClient
