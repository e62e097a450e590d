import TypedClient.TypeText.Target
import TypedClient.Warning

/-! What a run counts, and the warnings it raises. -/

namespace TypedClient

structure Stats where
  pathsDiscovered : Nat
  pathsExcluded : Nat
  schemasDiscovered : Nat
  operationsExtracted : Nat
  tagsClassified : Nat
  paramsAliases : Nat
  bodyAliases : Nat
  responseAliases : Nat
  payloadAliases : Nat
  propertyAliases : Nat
  endpointsGenerated : Nat
  wrappersGenerated : Nat
  queryHooksGenerated : Nat
  mutationHooksGenerated : Nat
  artifactsGenerated : Nat
  warnings : List Warning
  deriving DecidableEq, Repr

namespace Stats

def zero : Stats := ⟨0, 0, 0, 0, 0, 0, 0, 0, 0, 0, 0, 0, 0, 0, 0, []⟩

def warn (stats : Stats) (warnings : List Warning) : Stats :=
  { stats with warnings := stats.warnings ++ warnings }

def countAlias (stats : Stats) (found : Alias) : Stats :=
  match found.kind with
  | .params => { stats with paramsAliases := stats.paramsAliases + 1 }
  | .body => { stats with bodyAliases := stats.bodyAliases + 1 }
  | .response => { stats with responseAliases := stats.responseAliases + 1 }
  | .payload => { stats with payloadAliases := stats.payloadAliases + 1 }
  | .property => { stats with propertyAliases := stats.propertyAliases + 1 }

def countAliases (stats : Stats) (aliases : List Alias) : Stats := aliases.foldl countAlias stats

def aliasesGenerated (stats : Stats) : Nat :=
  stats.paramsAliases + stats.bodyAliases + stats.responseAliases + stats.payloadAliases +
    stats.propertyAliases

end Stats

end TypedClient
