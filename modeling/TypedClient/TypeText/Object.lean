import TypedClient.Name.Identifier
import TypedClient.TypeLiteral.Member

/-! Object types written on one line. -/

namespace TypedClient

open Text

/-- One space for every run of blanks. -/
def collapseBlanks : Text → Text
  | [] => []
  | c :: rest =>
    if isBlank c then
      if rest.head?.any isBlank then collapseBlanks rest else ' ' :: collapseBlanks rest
    else c :: collapseBlanks rest

/-- Type text on a single line, without comments. -/
def collapseType (text : Text) : Text := collapseBlanks (trim (stripComments text))

/-- A field of an object type. -/
structure Field where
  name : Text
  optional : Bool
  type : Text
  deriving DecidableEq, Repr

def Member.toField (member : Member) : Field := ⟨member.name, member.optional, member.value⟩

def Field.render (field : Field) : Text :=
  Name.propertyKey field.name ++ (if field.optional then "?: ".toList else ": ") ++
    collapseType field.type

/-- `{ id: number; page?: number }`. -/
def renderObject (fields : List Field) : Text :=
  if fields = [] then "\x7b\x7d"
  else "\x7b " ++ join "; " (fields.map Field.render) ++ " \x7d"

def isArrayType (text : Text) : Bool :=
  let type := trim text
  endsWith "[]" type || startsWith "Array<" type || startsWith "ReadonlyArray<" type

end TypedClient
