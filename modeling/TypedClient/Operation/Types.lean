import TypedClient.Operation.Response

/-! The aliases of an operation: its parameters, its body, its response and the payload of it. -/

namespace TypedClient

open Text

structure OperationTypes where
  id : Text
  method : Method
  path : Text
  parameters : List Parameter
  params : Option Target
  body : Option Target
  response : Target
  payload : Option Target
  strategy : Option Strategy
  deriving DecidableEq, Repr

namespace OperationTypes

def nameOf (types : OperationTypes) (kind : AliasKind) : Text := kind.aliasName types.id

def aliasOf (types : OperationTypes) (kind : AliasKind) (target : Target) : Alias :=
  ⟨types.nameOf kind, kind, target⟩

/-- The aliases there are, in the order in which they are written. -/
def aliases (types : OperationTypes) : List Alias :=
  (types.params.map (types.aliasOf .params)).toList ++
    (types.body.map (types.aliasOf .body)).toList ++
    [types.aliasOf .response types.response] ++
    (types.payload.map (types.aliasOf .payload)).toList

/-- The schemas that body, response and payload name, each once. -/
def rootSchemas (types : OperationTypes) : List Text :=
  ((types.body.toList ++ [types.response] ++ types.payload.toList).filterMap
    Target.schema?).eraseDups

/-- The type that a call results in. -/
def resultType (types : OperationTypes) : Text :=
  if types.payload.isSome then types.nameOf .payload
  else if types.response = .void then "void"
  else types.nameOf .response

def paramsType? (types : OperationTypes) : Option Text :=
  types.params.map fun _ => types.nameOf .params

def bodyType? (types : OperationTypes) : Option Text :=
  types.body.map fun _ => types.nameOf .body

end OperationTypes

def RequestBody.target : RequestBody → Target
  | named schema => .schema schema
  | inline type =>
    match arrayRef? type with
    | some element => .schemaArray element
    | none => .inline (collapseType type)

/-- The parameters as one flat object type, if there are any. -/
def paramsTarget? (parameters : List Parameter) : Option Target :=
  if parameters = [] then none
  else some (.inline (renderObject (parameters.map Parameter.toField)))

/-- Types an operation against a description. -/
def Description.typesOf (description : Description) (operation : Operation) :
    Reported OperationTypes :=
  let untyped : OperationTypes :=
    { id := operation.id
      method := operation.method
      path := operation.path
      parameters := operation.parameters
      params := paramsTarget? operation.parameters
      body := operation.body.map RequestBody.target
      response := .fallback
      payload := none
      strategy := none }
  match description.resolveResponse? operation.responses with
  | some resolved =>
    pure { untyped with
      response := resolved.type.response
      payload := resolved.type.payload
      strategy := some resolved.strategy }
  | none => .warn (.noUsableResponse operation.id) untyped

end TypedClient
