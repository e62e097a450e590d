import TypedClient.Text.Basic

/-! The kinds of generated files. -/

namespace TypedClient

open Text

inductive ArtifactKind
  | tagList
  | validatedTypes
  | propertyTypes
  | endpoints
  | domainApi
  | queryHooks
  | mutationHooks
  deriving DecidableEq, Repr

namespace ArtifactKind

def all : List ArtifactKind :=
  [tagList, validatedTypes, propertyTypes, endpoints, domainApi, queryHooks, mutationHooks]

def name : ArtifactKind → Text
  | tagList => "tag-list"
  | validatedTypes => "validated-types"
  | propertyTypes => "property-types"
  | endpoints => "endpoints"
  | domainApi => "domain-api"
  | queryHooks => "query-hooks"
  | mutationHooks => "mutation-hooks"

/-- The name by which files of one tag import each other. -/
def moduleName : ArtifactKind → Text
  | tagList => "tags"
  | validatedTypes => "types"
  | propertyTypes => "props"
  | endpoints => "endpoints"
  | domainApi => "api"
  | queryHooks => "queries"
  | mutationHooks => "mutations"

/-- Whether a server has one file of this kind, rather than one for every tag. -/
def isPerServer (kind : ArtifactKind) : Bool := kind = tagList

def extension (kind : ArtifactKind) : Text := if kind = tagList then "json" else "ts"

def fileName (kind : ArtifactKind) : Text := kind.moduleName ++ "." ++ kind.extension

/-- The specifier under which a file of the same tag imports this one. -/
def siblingModule (kind : ArtifactKind) : Text := "./" ++ kind.moduleName

end ArtifactKind

end TypedClient
