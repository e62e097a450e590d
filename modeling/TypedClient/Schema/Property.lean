import TypedClient.TypeText.Target
import TypedClient.TypeText.Union

/-! Properties of schemas, which of them get an alias of their own, and in which order. -/

namespace TypedClient

open Text Name

/-- How much a property tells about its schema, least first. -/
inductive Priority
  | baseline
  | nestedReference
  | suffixMatch
  | enumOrUnion
  deriving DecidableEq, Repr

/-- The priorities from the highest to the lowest. -/
def Priority.descending : List Priority := [enumOrUnion, suffixMatch, nestedReference, baseline]

structure Property where
  name : Text
  type : Text
  optional : Bool
  /-- The values of a type made of string literals only. -/
  literals : Option (List Text)
  deriving DecidableEq, Repr

/-- Endings of a name that mark a property as categorical. -/
def categoricalEndings : List Text := ["Type", "Status", "State", "Mode"]

def isCategorical (name : Text) : Bool := categoricalEndings.any (endsWith · name)

def skippedNames : List Text :=
  ["id", "description", "content", "message", "code", "data", "format"]

def skippedEndings : List Text := ["Id", "Url", "Count"]

namespace Property

/-- The property of a member's name and type text. -/
def ofMember (name type : Text) (optional : Bool) : Except CutLiteral Property :=
  (unionLiterals (trim type)).map fun literals => ⟨name, trim type, optional, literals⟩

/-- The first schema that the type refers to. -/
def nested? (property : Property) : Option Text := (schemaRefs property.type).head?

def isArray (property : Property) : Bool := isArrayType property.type

def priority (property : Property) : Priority :=
  if property.literals.isSome then .enumOrUnion
  else if isCategorical property.name then .suffixMatch
  else if property.nested?.isSome then .nestedReference
  else .baseline

/-- Whether a property gets an alias of its own. -/
def isRelevant (property : Property) : Bool :=
  property.literals.isSome || isCategorical property.name ||
    (!skippedNames.contains property.name && !skippedEndings.any (endsWith · property.name))

/-- The relevant ones of a list of properties by descending priority; those of one priority keep
their order. -/
def ranked (properties : List Property) : List Property :=
  Priority.descending.flatMap fun priority =>
    properties.filter fun property => property.isRelevant && property.priority == priority

end Property

def propertyAliasName (schema property : Text) : Text :=
  "Props_" ++ schemaType schema ++ "_" ++ propertySegment property

/-- `['name']`, with a backslash before backslashes and quotes. -/
def quotedIndex (name : Text) : Text :=
  "['" ++ escape (fun c => c == '\\' || c == '\'') name ++ "']"

/-- The type of a property as an access into the schema, without its absence if it is optional. -/
def Property.accessType (schema : Text) (property : Property) : Text :=
  let access := "components['schemas']" ++ quotedIndex schema ++ quotedIndex property.name
  if property.optional then "NonNullable<" ++ access ++ ">" else access

end TypedClient
