import TypedClient.Description.Model
import TypedClient.Json.Pretty

/-! Paths sorted into tags. -/

namespace TypedClient

open Text

/-- A tag with the paths that have it. -/
structure TagEntry where
  name : Text
  pathCount : Nat
  paths : List Text
  deriving DecidableEq, Repr

namespace TagEntry

def start (name : Text) : TagEntry := ⟨name, 0, []⟩

def push (path : Text) (entry : TagEntry) : TagEntry :=
  { entry with pathCount := entry.pathCount + 1, paths := entry.paths ++ [path] }

end TagEntry

structure Classification where
  /-- The tags by name, ascending. -/
  tags : List (Text × TagEntry)
  /-- The tag of each path, in the order of the paths. -/
  assignments : List (Text × Text)
  excluded : List Text
  deriving DecidableEq, Repr

/-- The document that lists the tags of a server. -/
structure TagSummary where
  server : Text
  totalPaths : Nat
  tags : List Text
  counts : List (Text × Nat)
  paths : List (Text × List Text)
  excluded : List Text
  deriving DecidableEq, Repr

def TagSummary.toJson (summary : TagSummary) : Json :=
  .object [
    ("server", .string summary.server),
    ("totalPaths", .number (.natural summary.totalPaths)),
    ("tags", .array (summary.tags.map .string)),
    ("counts", .object (summary.counts.map fun (tag, count) => (tag, .number (.natural count)))),
    ("paths", .object (summary.paths.map fun (tag, paths) => (tag, .array (paths.map .string)))),
    ("excluded", .array (summary.excluded.map .string))]

namespace Classification

def empty : Classification := ⟨[], [], []⟩

/-- The tag of a path unless it is internal or the tag is to be left out. -/
def tagUnless (excludedTag : Option Text) (path : Text) : Option Text :=
  (Path.tag? path).filter fun tag => excludedTag != some tag

def add (excludedTag : Option Text) (found : Classification) (path : Text) : Classification :=
  match tagUnless excludedTag path with
  | none => { found with excluded := found.excluded ++ [path] }
  | some tag =>
    { found with
      tags := Table.alter tag (.start tag) (.push path) found.tags
      assignments := Table.put path tag found.assignments }

/-- Adds a path unless it was seen before. -/
def addUnseen (excludedTag : Option Text) (reached : List Text × Classification) (path : Text) :
    List Text × Classification :=
  if path ∈ reached.1 then reached else (path :: reached.1, add excludedTag reached.2 path)

/-- Sorts paths into tags; a repeated path counts once. -/
def ofPaths (excludedTag : Option Text) (paths : List Text) : Classification :=
  (paths.foldl (addUnseen excludedTag) ([], empty)).2

def ofEntries (excludedTag : Option Text) (entries : List PathEntry) : Classification :=
  ofPaths excludedTag (entries.map (·.path))

def tagNames (found : Classification) : List Text := found.tags.map (·.1)

def tagOf? (found : Classification) (path : Text) : Option Text := found.assignments.lookup path

/-- The entries of a tag, in their order. -/
def entriesOf (found : Classification) (tag : Text) (entries : List PathEntry) : List PathEntry :=
  entries.filter fun entry => found.tagOf? entry.path = some tag

/-- The counts and paths of the tags by name, as the document gives them. -/
def summary (found : Classification) (server : Text) : TagSummary :=
  { server
    totalPaths := found.assignments.length
    tags := found.tagNames
    counts := Table.ofSorted (found.tags.map fun (_, entry) => (entry.name, entry.pathCount))
    paths := Table.ofSorted (found.tags.map fun (_, entry) => (entry.name, entry.paths))
    excluded := found.excluded }

def tagList (found : Classification) (server : Text) : Text :=
  (found.summary server).toJson.pretty ++ ['\n']

end Classification

end TypedClient
