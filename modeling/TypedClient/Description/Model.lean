import TypedClient.Description.Basic

/-! The model of an interface: its paths, with operation ids that are all distinct. -/

namespace TypedClient

/-- Two operations under one id. -/
structure DuplicateOperation where
  id : Text
  first : Operation
  second : Operation
  deriving DecidableEq, Repr

def DuplicateOperation.message (duplicate : DuplicateOperation) : Text :=
  "duplicate operationId '" ++ duplicate.id ++ "' on " ++ duplicate.first.method.token ++ " " ++
    duplicate.first.path ++ " and " ++ duplicate.second.method.token ++ " " ++
    duplicate.second.path

/-- The first operation whose id is taken by an operation before it. -/
def findDuplicate? (before : List Operation) : List Operation → Option DuplicateOperation
  | [] => none
  | operation :: rest =>
    match before.find? fun earlier => earlier.id = operation.id with
    | some earlier => some ⟨operation.id, earlier, operation⟩
    | none => findDuplicate? (before ++ [operation]) rest

def operationsIn (entries : List PathEntry) : List Operation := entries.flatMap (·.operations)

/-- The paths of a description, unless two operations share an id. -/
def Description.model (description : Description) :
    Reported (Except DuplicateOperation (List PathEntry)) := do
  let entries ← description.pathEntries
  return match findDuplicate? [] (operationsIn entries) with
    | some duplicate => .error duplicate
    | none => .ok entries

end TypedClient
