import TypedClient.Http.Path

/-! Headers that open the controller groups of a module. -/

namespace TypedClient.Module

open Text

def headerOpening : Text := "// ==== "

def headerEnding : Text := " ===="

def groupHeader (group : Text) : Text := headerOpening ++ group ++ headerEnding

def isGroupHeader (line : Text) : Bool :=
  startsWith headerOpening line && endsWith headerEnding line

/-- Takes a blank line off the end of the lines kept, the last of which comes first. -/
def dropBlank : List Text → List Text
  | line :: rest => if allBlank line then rest else line :: rest
  | [] => []

/-- The lines kept, last first, where a header that repeats the `latest` one is left out together
with a blank line before it. -/
def keepLines (latest : Option Text) (kept : List Text) : List Text → List Text
  | [] => kept
  | line :: rest =>
    if isGroupHeader line then
      if latest = some line then keepLines latest (dropBlank kept) rest
      else keepLines (some line) (line :: kept) rest
    else keepLines latest (line :: kept) rest

/-- Leaves out every group header that repeats the header before it. -/
def collapseGroups (text : Text) : Text :=
  join "\n" (keepLines none [] (lines text)).reverse ++ (if endsWith "\n" text then ['\n'] else [])

end TypedClient.Module
