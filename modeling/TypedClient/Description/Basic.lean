import TypedClient.Description.Block
import TypedClient.Operation.Reading
import TypedClient.Schema.Basic

/-!
Interface descriptions. Three of their blocks matter: the paths, the schemas and the operations.
Each is located once, and a block that is missing counts as empty.
-/

namespace TypedClient

open Text

/-- A block and the entries it is made of. -/
structure Section where
  block : Block
  contents : List Entry
  contents_eq : contents = entries block.body := by rfl
  deriving DecidableEq, Repr

namespace Section

def find (text name : Text) : Reported (Option Section) :=
  match locate text name with
  | .ok block => pure (some { block, contents := entries block.body })
  | .error error => .warn (.malformedInput name error.message) none

def members (found : Section) : List Member := found.contents.map (·.member)

/-- Where the value of an entry stands in the whole text: the offset it starts at, and its
bytes. -/
def range (found : Section) (entry : Entry) : Nat × Nat :=
  (found.block.start + entry.offset found.block.body, entry.member.value.size)

end Section

structure Description where
  text : Text
  paths : Option Section
  schemas : Option Section
  operations : Option Section
  deriving DecidableEq, Repr

namespace Description

def ofText (text : Text) : Reported Description := do
  let paths ← Section.find text pathsScope
  let schemas ← Section.find text schemasScope
  let operations ← Section.find text operationsScope
  return { text, paths, schemas, operations }

def pathMembers (description : Description) : List Member :=
  (description.paths.map (·.members)).getD []

def schemaMembers (description : Description) : List Member :=
  (description.schemas.map (·.members)).getD []

def operationMembers (description : Description) : List Member :=
  (description.operations.map (·.members)).getD []

/-- The text of a block by its dotted name. -/
def block? (description : Description) (name : Text) : Option Text :=
  if name = pathsScope then description.paths.map (·.block.body)
  else if name = schemasScope then description.schemas.map (·.block.body)
  else if name = operationsScope then description.operations.map (·.block.body)
  else
    match locate description.text name with
    | .ok block => some block.body
    | .error _ => none

/-- The type text of each schema. A schema declared again keeps its place and takes the later
type. -/
def schemaTypes (description : Description) : List (Text × Text) :=
  Table.ofList (description.schemaMembers.map fun member => (member.name, member.value))

def schemaNames (description : Description) : List Text := description.schemaTypes.map (·.1)

def schemaType? (description : Description) (name : Text) : Option Text :=
  description.schemaTypes.lookup name

/-- The body of a schema that is an object literal. -/
def schemaBody? (description : Description) (name : Text) : Option Text :=
  (description.schemaType? name).bind braced?

def schema? (description : Description) (name : Text) : Option (Except CutLiteral Schema) :=
  (description.schemaBody? name).map (Schema.ofBody name)

/-- Where the value of a path stands by its first declaration. -/
def pathRange? (description : Description) (path : Text) : Option (Nat × Nat) := do
  let paths ← description.paths
  return paths.range (← paths.contents.find? fun entry => entry.member.name = path)

/-- The body of a path, cut out of the whole text again. -/
def pathBody? (description : Description) (path : Text) : Option Text := do
  let (start, bytes) ← description.pathRange? path
  braced? (← slice? start bytes description.text)

/-- The operation that a method's value refers to or spells out. -/
def resolve (description : Description) (path : Text) (method : Method) (value : Text) :
    Reported (Option Operation) :=
  match operationRef? value with
  | some id =>
    let declared := description.operationMembers.find? fun member => member.name = id
    match declared.bind Member.block? with
    | some body => some <$> Operation.ofBody id method path body false
    | none => .warn (.operationNotFound id method path) none
  | none =>
    match braced? value with
    | some body =>
      some <$> Operation.ofBody (Path.operationId method.token path) method path body true
    | none => .warn (.noOperation method path value) none

/-- The operation declared for a method on a path. -/
def operation? (description : Description) (path : Text) (method : Method) :
    Reported (Option Operation) :=
  match description.pathBody? path with
  | none => pure none
  | some body =>
    match (members body).find? fun member => Method.named? member.name = some method with
    | none => pure none
    | some member =>
      if member.isPlaceholder then pure none
      else description.resolve path method member.value

/-- The operations of a path for a list of methods; a method that has got its operation is not
looked up again. -/
def operationsOn (description : Description) (path : Text) (taken : List Method) :
    List Method → Reported (List Operation)
  | [] => pure []
  | method :: rest =>
    if method ∈ taken then description.operationsOn path taken rest
    else do
      match ← description.operation? path method with
      | some operation =>
        return operation :: (← description.operationsOn path (method :: taken) rest)
      | none => description.operationsOn path taken rest

/-- The entries of a list of path members, in order; a path already `seen` is left out. -/
def entriesOf (description : Description) (seen : List Text) :
    List Member → Reported (List PathEntry)
  | [] => pure []
  | member :: rest =>
    if member.name ∈ seen then do
      .warn (.duplicatePath member.name) ()
      description.entriesOf seen rest
    else
      match member.block? with
      | none => do
        .warn (.pathNotObject member.name) ()
        description.entriesOf (member.name :: seen) rest
      | some body => do
        let methods := (members body).filterMap fun declared => Method.named? declared.name
        let operations ← description.operationsOn member.name [] methods
        return ⟨member.name, operations⟩ ::
          (← description.entriesOf (member.name :: seen) rest)

/-- Every path with its operations, in the order of first declaration. -/
def pathEntries (description : Description) : Reported (List PathEntry) :=
  description.entriesOf [] description.pathMembers

end Description

end TypedClient
