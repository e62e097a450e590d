import TypedClient.Http.MediaType
import TypedClient.Http.Path
import TypedClient.Operation.Basic
import TypedClient.Reported
import TypedClient.Table
import TypedClient.TypeText.Reference

/-! Operations read from the bodies that declare them. -/

namespace TypedClient

open Text

/-- The JSON entry of a content block, or its first entry if there is none. -/
def selectContent? (block : Text) : Option Member :=
  let entries := members block
  (entries.find? fun entry => ContentCategory.ofKey entry.name == .json).or entries.head?

namespace Parameter

/-- The parameters of one location: the members of its group that carry a type. -/
def ofGroup (groups : Text) (operation : Text) (location : Location) : Reported (List Parameter) :=
  match findMember? groups location.name with
  | none => pure []
  | some group =>
    if group.isPlaceholder then pure []
    else
      match group.block? with
      | none => .warn (.groupNotObject operation location.name group.value) []
      | some body =>
        pure (((members body).filter fun member => !member.isPlaceholder).map fun member =>
          ⟨member.name, member.value, member.optional, location⟩)

/-- The groups of parameters that an operation declares. -/
def groupsOf (operation body : Text) : Reported Text :=
  match findMember? body "parameters" with
  | none => pure []
  | some parameters =>
    if parameters.isPlaceholder then pure []
    else
      match parameters.block? with
      | none => .warn (.parametersNotObject operation parameters.value) []
      | some groups => pure groups

/-- The parameters that an operation declares, by location. -/
def declaredBy (operation body : Text) : Reported (List Parameter) := do
  let groups ← groupsOf operation body
  let inPath ← ofGroup groups operation .path
  let inQuery ← ofGroup groups operation .query
  let inHeader ← ofGroup groups operation .header
  return inPath ++ inQuery ++ inHeader

/-- Puts a parameter behind the path parameters in front. -/
def insertInPath (parameter : Parameter) : List Parameter → List Parameter
  | [] => [parameter]
  | first :: rest =>
    if first.location = .path then first :: insertInPath parameter rest
    else parameter :: first :: rest

/-- What a placeholder stands for that is not declared. -/
def ofPlaceholder (placeholder : Text) : Parameter := ⟨placeholder, "string", false, .path⟩

/-- Adds a parameter for a placeholder, unless there is a path parameter of that name. -/
def addPlaceholder (operation : Text) (parameters : List Parameter) (placeholder : Text) :
    Reported (List Parameter) :=
  if parameters.any fun parameter => parameter.location = .path && parameter.name = placeholder then
    pure parameters
  else
    .warn (.placeholderNotDeclared operation placeholder)
      (insertInPath (ofPlaceholder placeholder) parameters)

/-- All parameters of an operation: the declared ones, and one for each placeholder of the path that
is not declared. -/
def ofOperation (operation path body : Text) : Reported (List Parameter) := do
  let declared ← declaredBy operation body
  (Path.placeholders path).foldlM (addPlaceholder operation) declared

end Parameter

/-- The request body that an operation declares. -/
def RequestBody.ofOperation (operation body : Text) : Reported (Option RequestBody) :=
  match findMember? body "requestBody" with
  | none => pure none
  | some request =>
    if request.isPlaceholder then pure none
    else
      match request.block? with
      | none => pure (some (.inline request.value))
      | some block =>
        match (findMember? block "content").bind Member.block? with
        | none => .warn (.noRequestContent operation) none
        | some content =>
          pure ((selectContent? content).map fun entry =>
            match directRef? entry.value with
            | some name => .named name
            | none => .inline entry.value)

/-- The content that a response declares. -/
def ResponseContent.ofMember (response : Member) : ResponseContent :=
  match response.block? with
  | none => if response.isPlaceholder then .noContent else .other response.value
  | some block =>
    match findMember? block "content" with
    | none => .noContent
    | some content =>
      if content.isPlaceholder then .noContent
      else
        match content.block?.bind selectContent? with
        | none => .other content.value
        | some entry =>
          match directRef? entry.value with
          | some name => .schema name
          | none => if (braced? entry.value).isSome then .inline entry.value else .other entry.value

/-- The responses that an operation declares, by status. -/
def responsesOf (operation body : Text) : Reported (List (Text × ResponseContent)) :=
  match (findMember? body "responses").bind Member.block? with
  | none => .warn (.noResponses operation) []
  | some block =>
    pure (Table.ofList ((members block).map fun response => (response.name, .ofMember response)))

/-- Reads one operation. -/
def Operation.ofBody (id : Text) (method : Method) (path body : Text) (synthesized : Bool) :
    Reported Operation := do
  let parameters ← Parameter.ofOperation id path body
  let request ← RequestBody.ofOperation id body
  let responses ← responsesOf id body
  return { id, method, path, parameters, body := request, responses, synthesized }

end TypedClient
