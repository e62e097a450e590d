import TypedClient.Config.VerbPrefixes
import TypedClient.Module.WrapperText
import TypedClient.Operation.Types

/-!
The types that a hook is written against. They are looked for in the wrapper's signature, then
under its operation id, then by its name; the first source that has an answer decides.
-/

namespace TypedClient

open Text

/-- What a hook hands to an argument of its wrapper. -/
inductive Slot
  | params
  | body
  deriving DecidableEq, Repr

def Slot.variable : Slot → Text
  | params => "params"
  | body => "body"

namespace FoundWrapper

def isBodyArgument (argument : Argument) : Bool := argument.name == "body"

/-- The arguments with the slot that each takes: `body` takes the body, the others are taken in
order. A wrapper with more than two arguments has no slots. -/
def slots? (wrapper : FoundWrapper) : Option (List (Slot × Argument)) :=
  match wrapper.arguments with
  | [] => some []
  | [only] => some [(if isBodyArgument only then .body else .params, only)]
  | [first, second] =>
    if isBodyArgument first && !isBodyArgument second then
      some [(.body, first), (.params, second)]
    else some [(.params, first), (.body, second)]
  | _ => none

/-- The slots in the order in which the wrapper takes them. -/
def slots (wrapper : FoundWrapper) : List Slot := (wrapper.slots?.getD []).map (·.1)

/-- The name under which warnings speak of a wrapper. -/
def reportedName (wrapper : FoundWrapper) : Text := wrapper.operation.getD wrapper.name

end FoundWrapper

structure HookTypes where
  params : Option Text
  body : Option Text
  result : Text
  deriving DecidableEq, Repr

namespace HookTypes

def unknownType : Text := "unknown"

def fitSlot (wrapper : FoundWrapper) (slot : Slot) (type : Option Text) : Option Text :=
  if slot ∈ wrapper.slots then some (type.getD unknownType) else none

/-- Types for exactly the slots that the wrapper takes. -/
def fit (wrapper : FoundWrapper) (types : HookTypes) : HookTypes :=
  ⟨fitSlot wrapper .params types.params, fitSlot wrapper .body types.body, types.result⟩

def fallback (wrapper : FoundWrapper) : HookTypes := fit wrapper ⟨none, none, unknownType⟩

def ofOperation (types : OperationTypes) : HookTypes :=
  ⟨types.paramsType?, types.bodyType?, types.resultType⟩

def setSlot (types : HookTypes) (slot : Slot) (type : Text) : HookTypes :=
  match slot with
  | .params => { types with params := some type }
  | .body => { types with body := some type }

/-- The types of the arguments, if every one is written. -/
def setSlots? (types : HookTypes) : List (Slot × Argument) → Option HookTypes
  | [] => some types
  | (slot, argument) :: rest =>
    match argument.type with
    | some type => setSlots? (types.setSlot slot type) rest
    | none => none

/-- The types written in the wrapper's own signature. -/
def ofSignature? (wrapper : FoundWrapper) : Option HookTypes := do
  setSlots? ⟨none, none, ← wrapper.returnType⟩ (← wrapper.slots?)

/-- The types of the operation that the wrapper's doc comment names. -/
def ofOperationId? (operations : List OperationTypes) (wrapper : FoundWrapper) :
    Option HookTypes := do
  let id ← wrapper.operation
  (operations.find? fun types => types.id = id).map ofOperation

end HookTypes

/-- A name without punctuation, in lower case. -/
def matchKey (name : Text) : Text := lowerAscii (name.filter Char.isAlphanum)

/-- What names of wrappers are compared with: the names of aliases, and verbs. -/
structure NameTable where
  /-- Ascending. -/
  typeNames : List Text
  verbs : List Text
  deriving DecidableEq, Repr

namespace NameTable

def ofNames (names : List Text) (verbs : VerbPrefixes) : NameTable :=
  ⟨Table.sorted names, verbs.all.map matchKey⟩

/-- The operation that an alias name belongs to. -/
def operationOf? (name : Text) : Option Text :=
  AliasKind.ofOperation.findSome? fun kind => ('_' :: kind.ending).isSuffixOf? name

/-- The operations that aliases belong to, ascending. -/
def operations (table : NameTable) : List Text :=
  Table.sorted (table.typeNames.filterMap operationOf?)

def alias? (table : NameTable) (operation : Text) (kind : AliasKind) : Option Text :=
  if kind.aliasName operation ∈ table.typeNames then some (kind.aliasName operation) else none

/-- The shorter of two texts, the first if they are equally long. -/
def shorter (best : Option Text) (text : Text) : Option Text :=
  match best with
  | none => some text
  | some earlier => if text.length < earlier.length then some text else best

/-- The key of a wrapper name without its verb; the longest verb goes. -/
def stem (table : NameTable) (key : Text) : Text :=
  (((table.verbs.filterMap fun verb => verb.isPrefixOf? key).filter (· ≠ [])).foldl shorter
    none).getD key

/-- Whether the name of a wrapper and the id of an operation begin or end alike. -/
def isMatch (key stem operation : Text) : Bool :=
  operation ≠ [] && (startsWith operation key || endsWith operation key ||
    startsWith stem operation || endsWith stem operation)

/-- The longer of two operations by their keys, the first if they are equally long. -/
def longer (best : Option Text) (operation : Text) : Option Text :=
  match best with
  | none => some operation
  | some earlier =>
    if (matchKey earlier).length < (matchKey operation).length then some operation else best

/-- The operation that a wrapper is for, by its name. -/
def operationFor? (table : NameTable) (wrapper : Text) : Option Text :=
  let key := matchKey wrapper
  (table.operations.filter fun operation =>
    isMatch key (table.stem key) (matchKey operation)).foldl longer none

/-- The aliases of the operation that a wrapper's name matches. -/
def hookTypes? (table : NameTable) (wrapper : FoundWrapper) : Option HookTypes := do
  let operation ← table.operationFor? wrapper.name
  let result ← (table.alias? operation .payload).or (table.alias? operation .response)
  some ⟨table.alias? operation .params, table.alias? operation .body, result⟩

end NameTable

/-- Where the types of a hook can come from. -/
inductive TypeSource
  | signature
  | operationId
  | nameInference
  deriving DecidableEq, Repr

namespace TypeSource

def all : List TypeSource := [signature, operationId, nameInference]

def name : TypeSource → Text
  | signature => "signature"
  | operationId => "operationId"
  | nameInference => "name inference"

def find? (operations : List OperationTypes) (table : NameTable) (wrapper : FoundWrapper) :
    TypeSource → Option HookTypes
  | signature => HookTypes.ofSignature? wrapper
  | operationId => HookTypes.ofOperationId? operations wrapper
  | nameInference => table.hookTypes? wrapper

/-- The types of a hook from the first source that has an answer, fitted to the wrapper. -/
def resolve (operations : List OperationTypes) (table : NameTable) (sources : List TypeSource)
    (wrapper : FoundWrapper) : Reported HookTypes :=
  match sources.findSome? (find? operations table wrapper) with
  | some types => pure (types.fit wrapper)
  | none =>
    .warn (.noHookTypes wrapper.reportedName wrapper.name (sources.map name))
      (.fallback wrapper)

end TypeSource

end TypedClient
