import TypedClient.Artifact.Kind
import TypedClient.FilePath

/-! Generated files, at most one of a kind for each tag of each server. -/

namespace TypedClient

structure Artifact where
  server : Text
  tag : Option Text
  kind : ArtifactKind
  content : Text
  deriving DecidableEq, Repr

namespace Artifact

/-- Where a file stands under the output folder. -/
def relativePath (artifact : Artifact) : Text :=
  let folder :=
    match artifact.tag with
    | some tag =>
      if artifact.kind.isPerServer then artifact.server else FilePath.push artifact.server tag
    | none => artifact.server
  FilePath.push folder artifact.kind.fileName

/-- Whether two files are the same but for their contents. -/
def sameKey (left right : Artifact) : Bool :=
  left.server == right.server && left.tag == right.tag && left.kind == right.kind

end Artifact

/-- Files in the order in which their keys were first put. -/
structure ArtifactSet where
  artifacts : List Artifact
  deriving DecidableEq, Repr

namespace ArtifactSet

def empty : ArtifactSet := ⟨[]⟩

def putInto (artifact : Artifact) : List Artifact → List Artifact
  | [] => [artifact]
  | earlier :: rest =>
    if earlier.sameKey artifact then artifact :: rest else earlier :: putInto artifact rest

/-- Puts a file; one of the same key gives way and keeps its place. -/
def put (set : ArtifactSet) (artifact : Artifact) : ArtifactSet :=
  ⟨putInto artifact set.artifacts⟩

def putAll (set : ArtifactSet) (artifacts : List Artifact) : ArtifactSet := artifacts.foldl put set

def get? (set : ArtifactSet) (server : Text) (tag : Option Text) (kind : ArtifactKind) :
    Option Artifact :=
  set.artifacts.find? fun artifact =>
    artifact.server == server && artifact.tag == tag && artifact.kind == kind

def content? (set : ArtifactSet) (server : Text) (tag : Option Text) (kind : ArtifactKind) :
    Option Text :=
  (set.get? server tag kind).map (·.content)

end ArtifactSet

end TypedClient
