import TypedClient.Name.Case

/-! Names that can be written down in code. -/

namespace TypedClient.Name

open Text

/-- Words that cannot be bound. -/
def reservedWords : List Text := List.map String.toList
  ["break", "case", "catch", "class", "const", "continue", "debugger", "default", "delete", "do",
    "else", "enum", "export", "extends", "false", "finally", "for", "function", "if", "import",
    "in", "instanceof", "new", "null", "return", "super", "switch", "this", "throw", "true", "try",
    "typeof", "var", "void", "while", "with", "as", "implements", "interface", "let", "package",
    "private", "protected", "public", "static", "yield", "await"]

def startsIdentifier (c : Char) : Bool := c.isAlpha || c == '_' || c == '$'

def continuesIdentifier (c : Char) : Bool := c.isAlphanum || c == '_' || c == '$'

/-- Whether a name can be used without quotes. -/
def isPlain : Text → Bool
  | [] => false
  | c :: rest => startsIdentifier c && rest.all continuesIdentifier

/-- A name in camel case that can be bound: `_` before a digit, `_` after a reserved word. -/
def identifier (name : Text) : Text :=
  match camel (sanitize name) with
  | [] => ['_']
  | c :: rest =>
    let bound := if c.isDigit then '_' :: c :: rest else c :: rest
    if bound ∈ reservedWords then bound ++ ['_'] else bound

/-- The key of a member in an object type, in single quotes unless it is plain. -/
def propertyKey (name : Text) : Text :=
  if isPlain name then name else '\'' :: escape (· == '\'') name ++ ['\'']

/-- The name of a schema as a type: a plain name is kept. -/
def schemaType (schema : Text) : Text :=
  if isPlain schema then schema else pascal (sanitize schema)

/-- Words that open the name of a yes-or-no property. -/
def booleanOpenings : List Text := ["is", "has", "allow", "hide"]

def isBooleanName (name : Text) : Bool :=
  booleanOpenings.any fun opening =>
    match opening.isPrefixOf? name with
    | some (c :: _) => c.isUpper || c == '_'
    | _ => false

def acronym (word : Text) : Text :=
  if word = "Url" then "URL" else if word = "Id" then "ID" else word

/-- The part of an alias name that stands for a property. -/
def propertySegment (name : Text) : Text :=
  if name ≠ [] ∧ name.all Char.isDigit then "NumericKey"
  else if pascal name = [] then "Unnamed"
  else if isBooleanName name then pascal name
  else (splitWords (pascal name)).flatMap acronym

end TypedClient.Name
