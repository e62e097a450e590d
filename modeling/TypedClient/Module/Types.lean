import TypedClient.Config.Basic
import TypedClient.Module.Basic
import TypedClient.Module.Group
import TypedClient.Name.Unique
import TypedClient.Operation.Types

/-! The module of a tag that exports the aliases of its operations. -/

namespace TypedClient.Module

open Text Name

/-- The schemas that a target refers to. -/
def schemasOf : Target → List Text
  | .schema name => [name]
  | .schemaArray element => [element]
  | .inline type => schemaRefs type
  | .void | .fallback => []

/-- A local name for every schema referred to, schemas ascending; no local name is reserved. -/
def localNames (targets : List Target) (reserved : List Text) : List (Text × Text) :=
  let schemas := Table.sorted (targets.flatMap schemasOf)
  schemas.zip (uniques reserved (schemas.map schemaType))

/-- `components['schemas']['X']`, with a backslash before quotes. -/
def schemaAccess (schema : Text) : Text :=
  "components['schemas']['" ++ escape (· == '\'') schema ++ "']"

def localOf (locals : List (Text × Text)) (schema : Text) : Text :=
  (locals.lookup schema).getD (schemaAccess schema)

def renderTarget (locals : List (Text × Text)) : Target → Text
  | .schema name => localOf locals name
  | .schemaArray element => localOf locals element ++ "[]"
  | .inline type => replaceSchemaRefs (localOf locals) type
  | .void => "void"
  | .fallback => "unknown"

def localLine (entry : Text × Text) : Text :=
  "type " ++ entry.2 ++ " = " ++ schemaAccess entry.1 ++ ";"

def exportLine (locals : List (Text × Text)) (entry : Alias) : Text :=
  "export type " ++ entry.name ++ " = " ++ renderTarget locals entry.target ++ ";"

/-- The aliases of one operation under the header of its group. -/
def typesBlock (locals : List (Text × Text)) (types : OperationTypes) : Text :=
  join "\n" (groupHeader (Path.group types.path) :: types.aliases.map (exportLine locals))

def aliasesOf (operations : List OperationTypes) : List Alias :=
  operations.flatMap OperationTypes.aliases

def localsFor (operations : List OperationTypes) : List (Text × Text) :=
  let aliases := aliasesOf operations
  localNames (aliases.map (·.target)) (aliases.map (·.name))

def validatedTypes (server tag : Text) (operations : List OperationTypes) (imports : ImportPaths) :
    Text :=
  let locals := localsFor operations
  let schemaImport :=
    if locals = [] then none
    else importLine? ["components"] (imports.schemaModule server tag) true
  assemble [schemaImport.getD [], join "\n" (locals.map localLine),
    collapseGroups (join "\n\n" (operations.map (typesBlock locals)))]

end TypedClient.Module
