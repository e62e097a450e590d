import TypedClient.Artifact.Kind
import TypedClient.Http.Method
import TypedClient.Run.Step

/-! What a run has to report short of failing. -/

namespace TypedClient

open Text

inductive Warning
  | malformedInput (scope message : Text)
  | unresolvableType (operation message : Text)
  | missingArtifact (server tag : Text) (artifact : ArtifactKind) (message : Text)
  | depthExceeded (schema : Text) (depth limit : Nat)
  | stepFailed (step : Step) (error : Text)
  deriving DecidableEq, Repr

def pathsScope : Text := "paths"

def schemasScope : Text := "components.schemas"

def operationsScope : Text := "operations"

namespace Warning

def text : Warning → Text
  | malformedInput scope message => "Malformed input in " ++ scope ++ ": " ++ message
  | unresolvableType operation message => "[" ++ operation ++ "] " ++ message
  | missingArtifact server tag artifact message =>
    "Skipped " ++ artifact.name ++ " for '" ++ server ++ "/" ++ tag ++ "': " ++ message
  | depthExceeded schema depth limit =>
    "Schema walk truncated at '" ++ schema ++ "' (depth " ++ ofNat depth ++ " exceeds " ++
      ofNat limit ++ ")"
  | stepFailed step error => "Step '" ++ step.name ++ "' failed: " ++ error

/-- Whether a piece of the output is missing, rather than merely less exact. -/
def isSkippedItem : Warning → Bool
  | missingArtifact .. | stepFailed .. => true
  | malformedInput .. | unresolvableType .. | depthExceeded .. => false

def duplicatePath (path : Text) : Warning :=
  .malformedInput pathsScope ("duplicate path '" ++ path ++ "' ignored")

def pathNotObject (path : Text) : Warning :=
  .malformedInput pathsScope ("path '" ++ path ++ "' is not an object literal")

def operationNotFound (operation : Text) (method : Method) (path : Text) : Warning :=
  .malformedInput operationsScope
    ("operation '" ++ operation ++ "' referenced by " ++ method.token ++ " " ++ path ++
      " not found")

def noOperation (method : Method) (path value : Text) : Warning :=
  .malformedInput pathsScope
    (method.token ++ " " ++ path ++ " does not reference an operation: " ++ value)

def schemaNotDeclared (schema : Text) : Warning :=
  .malformedInput schemasScope ("schema '" ++ schema ++ "' is referenced but not declared")

def parametersNotObject (operation value : Text) : Warning :=
  .unresolvableType operation ("parameters are not an object literal: " ++ value)

def groupNotObject (operation location value : Text) : Warning :=
  .unresolvableType operation (location ++ " parameters are not an object literal: " ++ value)

def placeholderNotDeclared (operation placeholder : Text) : Warning :=
  .unresolvableType operation
    ("path placeholder '" ++ placeholder ++ "' is not declared, typed as string")

def noRequestContent (operation : Text) : Warning :=
  .unresolvableType operation "request body has no content block"

def noResponses (operation : Text) : Warning :=
  .unresolvableType operation "operation has no responses block"

def noUsableResponse (operation : Text) : Warning :=
  .unresolvableType operation "no usable 2xx or default response, falling back to unknown"

def noHookTypes (reported wrapper : Text) (tried : List Text) : Warning :=
  .unresolvableType reported
    ("no hook types for wrapper '" ++ wrapper ++ "' (tried " ++ join ", " tried ++
      "), using unknown")

def noHookMethod (reported wrapper : Text) : Warning :=
  .unresolvableType reported
    ("cannot tell the HTTP method of wrapper '" ++ wrapper ++ "', no hook generated")

def noApiToRead (server tag : Text) : Warning :=
  .missingArtifact server tag .queryHooks
    ("no " ++ ArtifactKind.domainApi.fileName ++ " to read, hooks not generated")

end Warning

end TypedClient
