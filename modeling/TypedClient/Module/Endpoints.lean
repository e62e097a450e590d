import TypedClient.Module.Basic
import TypedClient.Name.Unique
import TypedClient.Operation.Types

/-! The module of a tag that exports a path constant, or a path builder, for each operation. -/

namespace TypedClient

open Text Name

/-- The path constant or path builder of an operation. -/
structure Endpoint where
  operation : Text
  method : Method
  path : Text
  name : Text
  /-- The placeholders of the path in order, each with the argument that stands for it. -/
  placeholders : List (Text × Text)
  deriving DecidableEq, Repr

namespace Endpoint

def isDynamic (endpoint : Endpoint) : Bool := !endpoint.placeholders.isEmpty

/-- The expression that yields the path, given an argument for each placeholder. -/
def call (endpoint : Endpoint) (arguments : List Text) : Text :=
  if endpoint.isDynamic then endpoint.name ++ "(" ++ join ", " arguments ++ ")"
  else endpoint.name

/-- Literal text inside a template literal. -/
def escapeTemplate (literal : Text) : Text :=
  replace ['$', '{'] ['\\', '$', '{'] (escape (fun c => c == '\\' || c == '\x60') literal)

/-- The inside of a template literal for the parts of a path, whose placeholders take the
arguments in turn. -/
def template (arguments : List Text) : List Path.Part → Text
  | [] => []
  | .literal text :: rest => escapeTemplate text ++ template arguments rest
  | .placeholder _ :: rest =>
    ['$', '{'] ++ arguments.headD [] ++ ['}'] ++ template arguments.tail rest

def parameterText (argument : Text) : Text := argument ++ ": string | number"

def render (endpoint : Endpoint) : Text :=
  if endpoint.isDynamic then
    let arguments := endpoint.placeholders.map (·.2)
    "export const " ++ endpoint.name ++ " = (" ++ join ", " (arguments.map parameterText) ++
      ") => \x60" ++ template arguments (Path.parts endpoint.path) ++ "\x60;"
  else
    "export const " ++ endpoint.name ++ " = '" ++ escape (· == '\'') endpoint.path ++ "';"

/-- The placeholders of a path with arguments that are pairwise distinct. -/
def argumentsOf (path : Text) : List (Text × Text) :=
  let placeholders := Path.placeholders path
  placeholders.zip (uniques [] (placeholders.map identifier))

/-- An endpoint for each operation, under names that are pairwise distinct. -/
def plan (operations : List OperationTypes) : List Endpoint :=
  let names := uniques [] (operations.map fun types => Path.constantName types.method types.path)
  List.zipWith (fun types name =>
    ⟨types.id, types.method, types.path, name, argumentsOf types.path⟩) operations names

end Endpoint

def Module.endpoints (planned : List Endpoint) : Text :=
  if planned = [] then empty else assemble [join "\n" (planned.map Endpoint.render)]

end TypedClient
