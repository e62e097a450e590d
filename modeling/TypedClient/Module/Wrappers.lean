import TypedClient.Artifact.Kind
import TypedClient.Config.Basic
import TypedClient.Module.Endpoints

/-!
The module of a tag that exports a wrapper for each operation: an asynchronous function that builds
the path, sends the request and unwraps the response.
-/

namespace TypedClient

open Text Name

/-- A property of the parameters, and the name it is bound to. -/
structure Binding where
  key : Text
  name : Text
  deriving DecidableEq, Repr

def Binding.render (binding : Binding) : Text :=
  if binding.key = binding.name then binding.name
  else propertyKey binding.key ++ ": " ++ binding.name

/-- What a wrapper sends. -/
structure Request where
  /-- One argument for each placeholder of the path. -/
  pathArguments : List Binding
  /-- Path parameters that the path has no placeholder for; they are kept out of the query. -/
  unusedPath : List Binding
  headers : List Binding
  hasQuery : Bool
  deriving DecidableEq, Repr

namespace Request

/-- Names that a wrapper uses itself. -/
def reservedNames : List Text := ["params", "body", "query", "headers", "http", "handleResponse"]

def namesAt (parameters : List Parameter) (location : Location) : List Text :=
  (parameters.filter fun parameter => parameter.location == location).map (·.name)

/-- Binds every path and header parameter to a name of its own. -/
def plan (parameters : List Parameter) (endpoint : Endpoint) : Request :=
  let placeholders := endpoint.placeholders.map (·.1)
  let unused := (namesAt parameters .path).filter (· ∉ placeholders)
  let headers := namesAt parameters .header
  let keys := placeholders ++ unused ++ headers
  let bindings := List.zipWith Binding.mk keys (uniques reservedNames (keys.map identifier))
  { pathArguments := bindings.take placeholders.length
    unusedPath := (bindings.drop placeholders.length).take unused.length
    headers := bindings.drop (placeholders.length + unused.length)
    hasQuery := namesAt parameters .query ≠ [] }

/-- Everything that is taken out of the parameters. -/
def bindings (request : Request) : List Binding :=
  request.pathArguments ++ request.unusedPath ++ request.headers

end Request

structure Wrapper where
  name : Text
  operation : Text
  method : Method
  path : Text
  paramsType : Option Text
  bodyType : Option Text
  resultType : Text
  deriving DecidableEq, Repr

namespace Wrapper

def ofTypes (name : Text) (types : OperationTypes) : Wrapper :=
  ⟨name, types.id, types.method, types.path, types.paramsType?, types.bodyType?, types.resultType⟩

/-- An argument with its type. -/
def typed (argument type : Text) : Text := argument ++ ": " ++ type

def signature (wrapper : Wrapper) : Text :=
  join ", " ((wrapper.paramsType.map (typed "params")).toList ++
    (wrapper.bodyType.map (typed "body")).toList)

/-- The types that a wrapper names, `void` apart. -/
def typeNames (wrapper : Wrapper) : List Text :=
  wrapper.paramsType.toList ++ wrapper.bodyType.toList ++
    if wrapper.resultType = "void" then [] else [wrapper.resultType]

/-- Methods whose call takes the body as its second argument. -/
def sendsBody (method : Method) : Bool := method ∈ [Method.post, Method.put, Method.patch]

def inBracesList (entries : List Text) : Text := "\x7b " ++ join ", " entries ++ " \x7d"

/-- The statement that takes the bindings out of the parameters. -/
def destructuring? (wrapper : Wrapper) (request : Request) : Option Text :=
  if wrapper.paramsType.isSome ∧ request.bindings ≠ [] then
    let rest : List Text := if request.hasQuery then ["...query"] else []
    some ("const " ++ inBracesList (request.bindings.map Binding.render ++ rest) ++ " = params;")
  else none

/-- The entry of the call's options that sends the query. -/
def queryEntry? (wrapper : Wrapper) (request : Request) : Option Text :=
  if wrapper.paramsType.isSome ∧ request.hasQuery then
    some (if request.bindings = [] then "params" else "params: query")
  else none

def headerEntry (binding : Binding) : Text := propertyKey binding.key ++ ": " ++ binding.name

def headersEntry? (request : Request) : Option Text :=
  if request.headers = [] then none
  else some ("headers: " ++ inBracesList (request.headers.map headerEntry))

def dataEntry? (wrapper : Wrapper) : Option Text :=
  if wrapper.bodyType.isSome ∧ !sendsBody wrapper.method then some "data: body" else none

/-- The options of the call, if it has any. -/
def options? (wrapper : Wrapper) (request : Request) : Option Text :=
  match [wrapper.queryEntry? request, headersEntry? request, wrapper.dataEntry?].filterMap id with
  | [] => none
  | entries => some (inBracesList entries)

/-- The body argument of the call, `undefined` where only options follow. -/
def bodyArgument? (wrapper : Wrapper) (request : Request) : Option Text :=
  if !sendsBody wrapper.method then none
  else if wrapper.bodyType.isSome then some "body"
  else if (wrapper.options? request).isSome then some "undefined"
  else none

def callArguments (wrapper : Wrapper) (request : Request) (endpoint : Endpoint) : List Text :=
  endpoint.call (request.pathArguments.map (·.name)) ::
    ((wrapper.bodyArgument? request).toList ++ (wrapper.options? request).toList)

def returnStatement (wrapper : Wrapper) (request : Request) (endpoint : Endpoint) : Text :=
  "return handleResponse<" ++ wrapper.resultType ++ ">(http." ++ wrapper.method.lowerName ++ "(" ++
    join ", " (wrapper.callArguments request endpoint) ++ "));"

/-- The statements of a wrapper. -/
def statements (wrapper : Wrapper) (request : Request) (endpoint : Endpoint) : List Text :=
  (wrapper.destructuring? request).toList ++ [wrapper.returnStatement request endpoint]

def indented (line : Text) : Text := "  " ++ line

def docContext (wrapper : Wrapper) : DocContext :=
  ⟨wrapper.method, wrapper.path, wrapper.operation, wrapper.name⟩

def render (wrapper : Wrapper) (parameters : List Parameter) (endpoint : Endpoint)
    (template : Text) : Text :=
  let doc := docLines template wrapper.docContext ++ ["@operationId " ++ wrapper.operation]
  let request := Request.plan parameters endpoint
  let body := (wrapper.statements request endpoint).map indented
  Module.docComment doc 0 ++ "\nexport const " ++ wrapper.name ++ " = async (" ++
    wrapper.signature ++ "): Promise<" ++ wrapper.resultType ++ "> => \x7b\n" ++ join "\n" body ++
    "\n\x7d;"

end Wrapper

inductive ApiError
  | template (error : UnknownPlaceholder)
  | noEndpoint (operation server tag : Text)
  deriving DecidableEq, Repr

def ApiError.message : ApiError → Text
  | template error => error.message
  | noEndpoint operation server tag =>
    "no endpoint planned for '" ++ operation ++ "' in " ++ server ++ "/" ++ tag

/-- A module of wrappers. -/
structure DomainApi where
  content : Text
  wrappers : List Wrapper
  deriving DecidableEq, Repr

namespace DomainApi

def runtimeNames : List Text := ["handleResponse", "http"]

/-- Pairs an operation with the endpoint planned for it. -/
def endpointFor (server tag : Text) (planned : List Endpoint) (types : OperationTypes) :
    Except ApiError Endpoint :=
  match planned.find? fun endpoint => endpoint.operation = types.id with
  | some endpoint => .ok endpoint
  | none => .error (.noEndpoint types.id server tag)

/-- The wrappers of operations, under names that are pairwise distinct. -/
def wrappersOf (verbs : VerbPrefixes) (operations : List OperationTypes) : List Wrapper :=
  let names := uniques runtimeNames
    (operations.map fun types => verbs.wrapperName types.method types.path)
  List.zipWith Wrapper.ofTypes names operations

def importsOf (imports : ImportPaths) (endpoints : List Endpoint) (wrappers : List Wrapper) :
    Text :=
  Module.importBlock
    [Module.importLine? runtimeNames imports.runtime false,
      Module.importLine? (endpoints.map (·.name)) ArtifactKind.endpoints.siblingModule false,
      Module.importLine? (wrappers.flatMap Wrapper.typeNames)
        ArtifactKind.validatedTypes.siblingModule true]

/-- The module of wrappers for operations whose endpoints are planned. -/
def generate (server tag : Text) (operations : List OperationTypes) (planned : List Endpoint)
    (config : Config) : Except ApiError DomainApi := do
  match config.templates.unknown? with
  | some error => throw (.template error)
  | none =>
    if operations = [] then return ⟨Module.empty, []⟩
    let endpoints ← operations.mapM (endpointFor server tag planned)
    let wrappers := wrappersOf config.verbs operations
    let blocks := (wrappers.zip (operations.zip endpoints)).map fun (wrapper, types, endpoint) =>
      wrapper.render types.parameters endpoint config.templates.wrapper
    return ⟨Module.assemble (importsOf config.imports endpoints wrappers :: blocks), wrappers⟩

end DomainApi

end TypedClient
