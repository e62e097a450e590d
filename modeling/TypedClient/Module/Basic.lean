import TypedClient.Table
import TypedClient.Text.Basic

/-! The parts that generated modules are put together from. -/

namespace TypedClient.Module

open Text

def header : Text := "// Auto-generated by tsapi-gen. Do not edit."

def emptyBody : Text := "export \x7b\x7d;"

/-- The header, then every section that is not blank, one blank line before each. -/
def assemble (sections : List Text) : Text :=
  header ++ ['\n'] ++
    ((sections.map trimEnd).filter (· ≠ [])).flatMap fun body => '\n' :: body ++ ['\n']

def empty : Text := assemble [emptyBody]

def docLine (pad line : Text) : Text := pad ++ " * " ++ line ++ "\n"

/-- A doc comment, indented by a number of spaces. -/
def docComment (lines : List Text) (indent : Nat) : Text :=
  let pad : Text := List.replicate indent ' '
  pad ++ "/**\n" ++ lines.flatMap (docLine pad) ++ pad ++ " */"

/-- One import of names from a module, the names ascending and each once; none for no names. -/
def importLine? (names : List Text) (source : Text) (typeOnly : Bool) : Option Text :=
  match Table.sorted names with
  | [] => none
  | name :: more =>
    some ((if typeOnly then "import type".toList else "import") ++ " \x7b " ++
      join ", " (name :: more) ++ " \x7d from '" ++ source ++ "';")

/-- The import lines that there are. -/
def importBlock (imports : List (Option Text)) : Text := join "\n" (imports.filterMap id)

end TypedClient.Module
