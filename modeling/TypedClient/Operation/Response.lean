import TypedClient.Description.Model
import TypedClient.TypeText.Target

/-!
The response type of an operation. Every candidate status is tried in turn, and for each status
every strategy; the first that has an answer decides.
-/

namespace TypedClient

open Text

/-- Ways to read a type off a response, in the order in which they are tried. -/
inductive Strategy
  /-- A schema whose name ends in `Response`. -/
  | namedResponse
  /-- An object literal whose `data` refers to a schema. -/
  | dataEnvelope
  /-- An object literal of `code` and `message` only. -/
  | statusEnvelope
  | noContent
  /-- Any other schema, or an array of one. -/
  | namedSchema
  deriving DecidableEq, Repr

def Strategy.all : List Strategy :=
  [namedResponse, dataEnvelope, statusEnvelope, noContent, namedSchema]

def Strategy.name : Strategy → Text
  | namedResponse => "named_response"
  | dataEnvelope => "data_envelope"
  | statusEnvelope => "status_envelope"
  | noContent => "no_content"
  | namedSchema => "named_schema"

/-- A response type and the payload it carries. -/
structure ResponseType where
  response : Target
  payload : Option Target
  deriving DecidableEq, Repr

/-- The target of the `data` member of a body. -/
def dataTarget? (body : Text) : Option Target :=
  (findMember? body "data").bind fun member => Target.ofRef? member.value

/-- A declared schema with the payload that its `data` refers to. -/
def Description.responseOfSchema? (description : Description) (name : Text) :
    Option ResponseType :=
  if (description.schemaType? name).isSome then
    some ⟨.schema name, (description.schemaBody? name).bind dataTarget?⟩
  else none

/-- An object literal on one line. -/
def inlineObject (body : Text) : Target :=
  .inline (renderObject ((members body).map Member.toField))

def isStatusMember (member : Member) : Bool := member.name == "code" || member.name == "message"

def Strategy.resolve? (description : Description) (status : Text) (content : ResponseContent) :
    Strategy → Option ResponseType
  | namedResponse =>
    match content with
    | .schema name =>
      if endsWith "Response" name then description.responseOfSchema? name else none
    | _ => none
  | dataEnvelope =>
    match content with
    | .inline type => do
      let body ← braced? type
      let payload ← dataTarget? body
      some ⟨inlineObject body, some payload⟩
    | _ => none
  | statusEnvelope =>
    match content with
    | .inline type => do
      let body ← braced? type
      if members body ≠ [] ∧ (members body).all isStatusMember then
        some ⟨inlineObject body, none⟩
      else none
    | _ => none
  | noContent => if content = .noContent ∨ status = "204" then some ⟨.void, none⟩ else none
  | namedSchema =>
    match content with
    | .schema name => description.responseOfSchema? name
    | .other type => (arrayRef? type).map fun name => ⟨.schemaArray name, none⟩
    | _ => none

def isSuccessStatus (status : Text) : Bool := size status == 3 && status.head? == some '2'

def isDefaultStatus (status : Text) : Bool := status == "default"

/-- The success statuses in ascending order, then `default`. -/
def candidateStatuses (statuses : List Text) : List Text :=
  Table.sorted (statuses.filter isSuccessStatus) ++ statuses.filter isDefaultStatus

structure ResolvedResponse where
  status : Text
  strategy : Strategy
  type : ResponseType
  deriving DecidableEq, Repr

/-- The answer of the first strategy that has one for a status. -/
def Description.resolveStatus? (description : Description) (status : Text)
    (content : ResponseContent) : Option ResolvedResponse :=
  Strategy.all.findSome? fun strategy =>
    (strategy.resolve? description status content).map fun type => ⟨status, strategy, type⟩

def Description.resolveResponse? (description : Description)
    (responses : List (Text × ResponseContent)) : Option ResolvedResponse :=
  (candidateStatuses (responses.map (·.1))).findSome? fun status =>
    (responses.lookup status).bind (description.resolveStatus? status)

end TypedClient
