import TypedClient.Terminal.Grid
import TypedClient.Tag.Classification

/-! Tables of the paths and of the tags of an interface. -/

namespace TypedClient

open Text

/-- An operation of a path in a list. -/
structure PathRow where
  /-- The tag of the path, unless it is left out. -/
  tag : Option Text
  method : Method
  path : Text
  operationId : Text
  deriving DecidableEq, Repr

structure Listing where
  rows : List PathRow
  classification : Classification
  deriving DecidableEq, Repr

def excludedMark : Text := "(excluded)"

namespace PathRow

/-- Whether a row comes after another: rows go by tag, those without one last, and then by path. -/
def isAfter (row other : PathRow) : Bool :=
  match row.tag, other.tag with
  | none, some _ => true
  | some _, none => false
  | none, none => other.path < row.path
  | some tag, some otherTag => otherTag < tag || (tag == otherTag && other.path < row.path)

def ofEntry (classification : Classification) (entry : PathEntry) : List PathRow :=
  entry.operations.map fun operation =>
    ⟨classification.tagOf? entry.path, operation.method, entry.path, operation.id⟩

def cells (row : PathRow) : List Cell :=
  [.left (row.tag.getD excludedMark), .right row.method.token, .left row.path,
    .left row.operationId]

end PathRow

namespace Listing

/-- The operations of the description with this text, unless two share an id. -/
def ofText (text : Text) (excludedTag : Option Text) : Except DuplicateOperation Listing := do
  let entries ← (Description.ofText text).value.model.value
  let classification := Classification.ofEntries excludedTag entries
  return {
    rows := (entries.flatMap (PathRow.ofEntry classification)).mergeSort fun row other =>
      !row.isAfter other
    classification }

def pathGrid (listing : Listing) : Grid :=
  ⟨["TAG", "METHOD", "PATH", "OPERATION ID"], listing.rows.map PathRow.cells⟩

def countRow (name : Text) (count : Nat) : List Cell := [.left name, .right (ofNat count)]

def tagGrid (listing : Listing) : Grid :=
  let excluded := listing.classification.excluded
  ⟨["TAG", "PATHS"],
    (listing.classification.tags.map fun (_, entry) => countRow entry.name entry.pathCount) ++
      if excluded = [] then [] else [countRow excludedMark excluded.length]⟩

end Listing

end TypedClient
