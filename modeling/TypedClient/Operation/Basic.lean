import TypedClient.Http.Method
import TypedClient.TypeText.Object

/-! Operations: one method on one path, with what is needed to type it. -/

namespace TypedClient

inductive Location
  | path
  | query
  | header
  deriving DecidableEq, Repr

namespace Location

def name : Location → Text
  | path => "path"
  | query => "query"
  | header => "header"

end Location

structure Parameter where
  name : Text
  type : Text
  optional : Bool
  location : Location
  deriving DecidableEq, Repr

def Parameter.toField (parameter : Parameter) : Field :=
  ⟨parameter.name, parameter.optional, parameter.type⟩

inductive RequestBody
  | named (schema : Text)
  | inline (type : Text)
  deriving DecidableEq, Repr

inductive ResponseContent
  | schema (name : Text)
  /-- An object literal with its braces. -/
  | inline (type : Text)
  | noContent
  | other (type : Text)
  deriving DecidableEq, Repr

structure Operation where
  id : Text
  method : Method
  path : Text
  parameters : List Parameter
  body : Option RequestBody
  /-- The content of each status, in the order of first declaration. -/
  responses : List (Text × ResponseContent)
  /-- Whether the id was made from method and path. -/
  synthesized : Bool
  deriving DecidableEq, Repr

structure PathEntry where
  path : Text
  operations : List Operation
  deriving DecidableEq, Repr

end TypedClient
