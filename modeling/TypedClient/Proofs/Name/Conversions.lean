import TypedClient.Config.VerbPrefixes
import TypedClient.Schema.Property

/-!
Names derived with any conversions of text. How text is spelled in ASCII, and how a sanitized name is
put in camel case and in constant case, is open here; what names rely on is said in `Lawful`. The
standard conversions give the names of the other modules.
-/

namespace TypedClient

open Text Name

/-- The segments of a path without their braces. -/
def Path.bareSegments (path : Text) : List Text :=
  ((path.splitOn '/').map withoutBraces).filter (· ≠ [])

structure Conversions where
  ascii : Text → Text
  camel : Text → Text
  constant : Text → Text

namespace Conversions

section Names

variable (conversions : Conversions)

def sanitize (name : Text) : Text :=
  join "_" (((conversions.ascii name).splitOnP fun c => !c.isAlphanum).filter (· ≠ []))

def pascal (name : Text) : Text :=
  let ascii := conversions.ascii name
  if !ascii.any isSeparator && ascii.any Char.isUpper && ascii.any Char.isLower then
    match ascii.filter Char.isAlphanum with
    | [] => []
    | c :: rest => c.toUpper :: rest
  else capitalize true false ascii

def identifier (name : Text) : Text :=
  match conversions.camel (conversions.sanitize name) with
  | [] => ['_']
  | c :: rest =>
    let bound := if c.isDigit then '_' :: c :: rest else c :: rest
    if bound ∈ reservedWords then bound ++ ['_'] else bound

def schemaType (schema : Text) : Text :=
  if isPlain schema then schema else conversions.pascal (conversions.sanitize schema)

def propertySegment (name : Text) : Text :=
  if name ≠ [] ∧ name.all Char.isDigit then "NumericKey"
  else if conversions.pascal name = [] then "Unnamed"
  else if isBooleanName name then conversions.pascal name
  else (splitWords (conversions.pascal name)).flatMap acronym

def propertyAliasName (schema property : Text) : Text :=
  "Props_" ++ conversions.schemaType schema ++ "_" ++ conversions.propertySegment property

def constantName (method : Method) (path : Text) : Text :=
  let words :=
    (((path.splitOn '/').map Path.withoutBraces).map conversions.sanitize).filter (· ≠ [])
  let tail := if words = [] then "root".toList else join "_" words
  conversions.constant (conversions.sanitize (method.lowerName ++ "_" ++ tail))

def pascalName (path : Text) : Text :=
  match (Path.bareSegments path).flatMap conversions.pascal with
  | [] => "Root"
  | name => name

def wrapperName (verbs : VerbPrefixes) (method : Method) (path : Text) : Text :=
  verbs.verbFor method ++ conversions.pascalName path

end Names

def standard : Conversions where
  ascii := toAscii
  camel := Name.camel
  constant := fun name => upperAscii (parted name)

theorem identifier_standard : standard.identifier = Name.identifier := rfl

theorem propertySegment_standard : standard.propertySegment = Name.propertySegment := rfl

theorem propertyAliasName_standard :
    standard.propertyAliasName = TypedClient.propertyAliasName := rfl

theorem constantName_standard : standard.constantName = Path.constantName := rfl

theorem wrapperName_standard : standard.wrapperName = VerbPrefixes.wrapperName := rfl

end Conversions

end TypedClient
