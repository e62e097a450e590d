import TypedClient.Config.Basic
import TypedClient.Module.Basic
import TypedClient.Schema.Walk

/-! The module of a tag that exports the aliases of schema properties. -/

namespace TypedClient.Module

open Text

def propertyLine (found : PropertyAlias) : Text :=
  "export type " ++ found.name ++ " = " ++ found.accessType ++ ";"

/-- Aliases in stretches of one schema each. -/
def bySchema (aliases : List PropertyAlias) : List (List PropertyAlias) :=
  aliases.splitBy fun left right => left.schema == right.schema

/-- The aliases of one schema under its name. -/
def propertyBlock (aliases : List PropertyAlias) : Text :=
  match aliases with
  | [] => []
  | first :: _ => join "\n" (("// " ++ first.schema) :: aliases.map propertyLine)

def propertyTypes (server tag : Text) (aliases : List PropertyAlias) (imports : ImportPaths) :
    Text :=
  if aliases = [] then empty
  else
    let schemaImport := importLine? ["components"] (imports.schemaModule server tag) true
    assemble (schemaImport.getD [] :: (bySchema aliases).map propertyBlock)

end TypedClient.Module
