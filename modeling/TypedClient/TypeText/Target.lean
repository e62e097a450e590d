import TypedClient.TypeText.Object
import TypedClient.TypeText.Reference

/-! What the aliases of a client stand for. -/

namespace TypedClient

inductive Target
  | schema (name : Text)
  | schemaArray (element : Text)
  | inline (type : Text)
  | void
  /-- Stands for a type that could not be found out. -/
  | fallback
  deriving DecidableEq, Repr

namespace Target

def schema? : Target → Option Text
  | schema name => some name
  | schemaArray element => some element
  | _ => none

/-- A schema or an array of one; any other type is no target. -/
def ofRef? (type : Text) : Option Target :=
  ((directRef? type).map schema).or ((arrayRef? type).map schemaArray)

end Target

inductive AliasKind
  | params
  | body
  | response
  /-- What a response carries as its data. -/
  | payload
  | property
  deriving DecidableEq, Repr

def AliasKind.ending : AliasKind → Text
  | params => "Params"
  | body => "Body"
  | response => "Response"
  | payload => "RO"
  | property => "Property"

/-- The kinds of alias an operation can have. -/
def AliasKind.ofOperation : List AliasKind := [params, body, response, payload]

def AliasKind.aliasName (kind : AliasKind) (operation : Text) : Text :=
  operation ++ "_" ++ kind.ending

/-- A named type of the client. -/
structure Alias where
  name : Text
  kind : AliasKind
  target : Target
  deriving DecidableEq, Repr

end TypedClient
