import TypedClient.Text.Basic

/-! Paths of files, with `/` between their names. -/

namespace TypedClient.FilePath

open Text

def isAbsolute (path : Text) : Bool := path.head? = some '/'

/-- Goes on from a path; an absolute path replaces what stands before it. -/
def push (base path : Text) : Text :=
  if isAbsolute path then path
  else if base = [] ∨ base.getLast? = some '/' then base ++ path
  else base ++ "/" ++ path

/-- The stretches of a path between slashes. -/
def steps (path : Text) : List Text := path.splitOn '/'

/-- A step that stays where it is. -/
def staysPut (step : Text) : Bool := step == [] || step == "."

def goesUp (step : Text) : Bool := step == ".."

/-- Takes steps that stay where they are off the end, all but the first step. -/
def dropStays : List Text → List Text
  | [] => []
  | first :: rest => first :: (rest.reverse.dropWhile staysPut).reverse

/-- The path of the folder that a path lies in. -/
def parent (path : Text) : Text :=
  match dropStays (steps path) with
  | [] | [_] => []
  | first :: second :: rest =>
    match dropStays (first :: (second :: rest).dropLast) with
    | [only] => if only = [] then "/" else only
    | kept => join "/" kept

end TypedClient.FilePath
