import TypedClient.Text.Utf8

/-! Why files cannot be read or written. -/

namespace TypedClient

inductive FileError
  | notFound
  | alreadyThere
  | notFolder
  | isFolder
  /-- Bytes that are read as text and are none. -/
  | notText
  | other (message : Text)
  deriving DecidableEq, Repr

def FileError.message : FileError → Text
  | notFound => "No such file or directory (os error 2)"
  | alreadyThere => "File exists (os error 17)"
  | notFolder => "Not a directory (os error 20)"
  | isFolder => "Is a directory (os error 21)"
  | notText => "stream did not contain valid UTF-8"
  | other message => message

end TypedClient
