import TypedClient.Text.Quoted

/-! What can be wrong with a JSON document, and where. -/

namespace TypedClient.Json

open Text

inductive Fault
  /-- The document ends inside a list, an object, a string or before a value. -/
  | openList
  | openObject
  | openString
  | openValue
  | noColon
  | noListSeparator
  | noObjectSeparator
  /-- A word that begins like `true`, `false` or `null` but goes on differently. -/
  | badWord
  | noValue
  | badEscape
  | badNumber
  | numberTooLarge
  | controlCharacter
  | keyNotString
  /-- The second half of a surrogate pair without the first, or a first half with a wrong second. -/
  | loneSurrogate
  /-- The first half of a surrogate pair with no escape after it. -/
  | openSurrogate
  | trailingComma
  | trailingText
  | tooDeep
  | wrongType (found expected : Text)
  | wrongValue (found expected : Text)
  | wrongLength (found : Nat) (expected : Text)
  | unknownField (name : Text) (known : List Text)
  | unknownVariant (name : Text) (known : List Text)
  | duplicateField (name : Text)
  | missingField (name : Text)
  | noVariant (type : Text)
  deriving DecidableEq, Repr

namespace Fault

def named (name : Text) : Text := '\x60' :: name ++ ['\x60']

def oneOf (names : List Text) : Text := "one of " ++ join ", " (names.map named)

def message : Fault → Text
  | openList => "EOF while parsing a list"
  | openObject => "EOF while parsing an object"
  | openString => "EOF while parsing a string"
  | openValue => "EOF while parsing a value"
  | noColon => "expected \x60:\x60"
  | noListSeparator => "expected \x60,\x60 or \x60]\x60"
  | noObjectSeparator => "expected \x60,\x60 or \x60\x7d\x60"
  | badWord => "expected ident"
  | noValue => "expected value"
  | badEscape => "invalid escape"
  | badNumber => "invalid number"
  | numberTooLarge => "number out of range"
  | controlCharacter => "control character (\\u0000-\\u001F) found while parsing a string"
  | keyNotString => "key must be a string"
  | loneSurrogate => "lone leading surrogate in hex escape"
  | openSurrogate => "unexpected end of hex escape"
  | trailingComma => "trailing comma"
  | trailingText => "trailing characters"
  | tooDeep => "recursion limit exceeded"
  | wrongType found expected => "invalid type: " ++ found ++ ", expected " ++ expected
  | wrongValue found expected => "invalid value: " ++ found ++ ", expected " ++ expected
  | wrongLength found expected => "invalid length " ++ ofNat found ++ ", expected " ++ expected
  | unknownField name known => "unknown field " ++ named name ++ ", expected " ++ oneOf known
  | unknownVariant name known => "unknown variant " ++ named name ++ ", expected " ++ oneOf known
  | duplicateField name => "duplicate field " ++ named name
  | missingField name => "missing field " ++ named name
  | noVariant type => "data did not match any variant of " ++ type

end Fault

/-- A step of the path to a fault. -/
inductive Segment
  | field (name : Text)
  | index (n : Nat)
  /-- A place that no name is known for. -/
  | unknown
  deriving DecidableEq, Repr

def Segment.text : Segment → Text
  | field name => name
  | index n => '[' :: ofNat n ++ [']']
  | unknown => "?"

/-- A step together with the point before it, which an index does not have. -/
def Segment.follow : Segment → Text
  | index n => Segment.text (.index n)
  | segment => '.' :: segment.text

def pathText : List Segment → Text
  | [] => "."
  | first :: rest => first.text ++ rest.flatMap Segment.follow

/-- A fault, how many bytes of the document had been read, and the path to it. -/
structure Failure where
  fault : Fault
  offset : Nat
  path : List Segment
  deriving DecidableEq, Repr

/-- Line and column of an offset. Columns count bytes and start at zero. -/
def placeFrom (line column : Nat) : Nat → Text → Nat × Nat
  | 0, _ | _, [] => (line, column)
  | n + 1, c :: rest =>
    if c = '\n' then placeFrom (line + 1) 0 n rest
    else if c.utf8Size ≤ n + 1 then
      placeFrom line (column + c.utf8Size) (n + 1 - c.utf8Size) rest
    else (line, column + (n + 1))

def Failure.message (failure : Failure) (document : Text) : Text :=
  let (line, column) := placeFrom 1 0 failure.offset document
  failure.fault.message ++ " at line " ++ ofNat line ++ " column " ++ ofNat column

end TypedClient.Json
