import TypedClient.Json.Skip

/-!
Values of a given shape read from JSON documents. The first thing that does not fit, in the order of
the document, is the fault.
-/

namespace TypedClient.Json

open Text

/-- How a value is spoken of in messages. -/
def describe : Json → Text
  | .null => "null"
  | .bool b => "boolean " ++ Fault.named (if b then "true" else "false")
  | .number (.real isNegative magnitude) =>
    "floating point " ++ Fault.named (Number.real isNegative magnitude).text
  | .number n => "integer " ++ Fault.named n.text
  | .string text => "string " ++ quoted text
  | .array _ => "sequence"
  | .object _ => "map"

namespace Reader

variable {α β ρ : Type}

/-- Gives up because the next value is not what is expected. A scalar is read first, so that the
fault lies behind it. -/
def mismatch (expected : Text) : Reader α := do
  match ← ahead with
  | none => failHere .openValue
  | some '[' => failHere (.wrongType (describe (.array [])) expected)
  | some '{' => failHere (.wrongType (describe (.object [])) expected)
  | some _ =>
    match ← scalar? with
    | some found => failHere (.wrongType (describe found) expected)
    | none => failNext .noValue

def null (expected : Text) : Reader Unit := do
  match ← ahead with
  | some 'n' => word "null"
  | _ => mismatch expected

def bool : Reader Bool := do
  match ← ahead with
  | some 't' =>
    word "true"
    return true
  | some 'f' =>
    word "false"
    return false
  | _ => mismatch "a boolean"

def text (expected : Text) : Reader Text := do
  match ← ahead with
  | some '"' => string
  | _ => mismatch expected

def natural (expected : Text) : Reader Nat := do
  match ← ahead with
  | some c =>
    if opensNumber c then
      match ← number with
      | .natural n => return n
      | .negative n => failHere (.wrongValue (describe (.number (.negative n))) expected)
      | .real isNegative magnitude =>
        failHere (.wrongType (describe (.number (.real isNegative magnitude))) expected)
    else mismatch expected
  | none => mismatch expected

/-- A value that can be `null`. -/
def optional (reader : Reader α) : Reader (Option α) := do
  match ← ahead with
  | some 'n' =>
    word "null"
    return none
  | _ => some <$> reader

/-! Lists. -/

/-- Whether another item follows; the comma before it is taken. -/
def hasItem (isFirst : Bool) : Reader Bool := do
  match ← ahead with
  | none => failHere .openList
  | some ']' => return false
  | some c =>
    if isFirst then return true
    else if c = ',' then
      advance
      match ← ahead with
      | none => failHere .openValue
      | some ']' => failNext .trailingComma
      | some _ => return true
    else failNext .noListSeparator

/-- Takes a bracket that opens a value. -/
def opening (bracket : Char) (expected : Text) : Reader Unit := do
  if (← ahead) = some bracket then advance else mismatch expected

def itemsFrom (reader : Reader α) (index : Nat) : Nat → Reader (List α)
  | 0 => pure []
  | bound + 1 => do
    if ← hasItem (index == 0) then
      let item ← within (.index index) reader
      return item :: (← itemsFrom reader (index + 1) bound)
    else
      advance
      return []

def list (reader : Reader α) : Reader (List α) := do
  opening '[' "a sequence"
  itemsFrom reader 0 (← room)

/-! Objects. -/

/-- Whether another member follows; the comma before it is taken. -/
def hasMember (isFirst : Bool) : Reader Bool := do
  match ← ahead with
  | none => failHere .openObject
  | some '}' => return false
  | some c =>
    if isFirst then
      if c = '"' then return true else failNext .keyNotString
    else if c = ',' then
      advance
      match ← ahead with
      | none => failHere .openValue
      | some '"' => return true
      | some '}' => failNext .trailingComma
      | some _ => failNext .keyNotString
    else failNext .noObjectSeparator

def colon : Reader Unit := do
  match ← ahead with
  | none => failHere .openObject
  | some ':' => advance
  | some _ => failNext .noColon

def membersFrom (member : Reader α) (isFirst : Bool) : Nat → Reader (List α)
  | 0 => pure []
  | bound + 1 => do
    if ← within .unknown (hasMember isFirst) then
      let found ← member
      return found :: (← membersFrom member false bound)
    else
      advance
      return []

/-- The members of an object, each read by a reader of name and value. -/
def object (member : Reader α) : Reader (List α) := do
  opening '{' "a map"
  membersFrom member true (← room)

/-- A member with its name. A missing colon is a fault of the object, not of the value. -/
def named (reader : Reader α) : Reader (Text × α) := do
  let name ← within .unknown string
  colon
  return (name, ← within (.field name) reader)

/-- Gives up because of a member as a whole. The fault lies behind the bracket that ends the object,
if that comes next. -/
def failMember (fault : Fault) : Reader α := do
  match ← ahead with
  | some '}' =>
    advance
    failHere fault
  | _ => failHere fault

/-! Choices between names. -/

/-- One of a list of names, with what it stands for. -/
def variant (options : List (Text × α)) : Reader (Text × α) := do
  let name ← text "variant identifier"
  match options.lookup name with
  | some chosen => return (name, chosen)
  | none => failHere (.unknownVariant name (options.map (·.1)))

/-- The name that an object starts with. -/
def variantKey (options : List (Text × α)) : Reader (Text × α) := do
  match ← ahead with
  | none => failHere .openObject
  | some '"' => variant options
  | some '}' => failNext .noValue
  | some _ => failNext .keyNotString

/-- One of a list of names, or an object whose only member is the name with `null`. -/
def choice (options : List (Text × α)) : Reader α := do
  match ← ahead with
  | none => failHere .openValue
  | some '"' => return (← variant options).2
  | some '{' =>
    advance
    let (name, chosen) ← variantKey options
    colon
    within (.field name) (null "unit")
    match ← ahead with
    | none => failHere .openObject
    | some '}' =>
      advance
      return chosen
    | some _ => failHere .noValue
  | some _ => failNext .noValue

/-! Records. -/

/-- A field of a record: its name, and a reader of what it does to the record. -/
structure FieldReader (ρ : Type) where
  name : Text
  isRequired : Bool
  read : Reader (ρ → ρ)

/-- A record whose fields can be given by name or in order. -/
structure RecordReader (ρ : Type) where
  expected : Text
  fields : List (FieldReader ρ)
  /-- Whether other names are refused, rather than passed over. -/
  isClosed : Bool
  /-- The record before any field is read. -/
  start : ρ

namespace RecordReader

def names (record : RecordReader ρ) : List Text := record.fields.map (·.name)

def memberFrom (record : RecordReader ρ) (seen : List Text) (value : ρ) :
    Reader (List Text × ρ) := do
  let name ← within .unknown string
  match record.fields.find? fun field => field.name = name with
  | some field =>
    if name ∈ seen then failMember (.duplicateField name)
    else
      colon
      let change ← within (.field name) field.read
      return (name :: seen, change value)
  | none =>
    if record.isClosed then
      within (.field name) (failMember (.unknownField name record.names))
    else
      colon
      within (.field name) skip
      return (seen, value)

def membersFrom (record : RecordReader ρ) (isFirst : Bool) (seen : List Text) (value : ρ) :
    Nat → Reader ρ
  | 0 => pure value
  | bound + 1 => do
    if ← within .unknown (hasMember isFirst) then
      let (seen, value) ← record.memberFrom seen value
      record.membersFrom false seen value bound
    else
      advance
      match record.fields.find? fun field => field.isRequired && field.name ∉ seen with
      | some field => failHere (.missingField field.name)
      | none => return value

/-- Takes the bracket that ends a list of fields. -/
def closing : Reader Unit := do
  match ← ahead with
  | none => failHere .openList
  | some ']' => advance
  | some ',' =>
    advance
    match ← ahead with
    | some ']' => failNext .trailingComma
    | _ => failNext .trailingText
  | some _ => failNext .trailingText

def itemsFrom (record : RecordReader ρ) (index : Nat) (value : ρ) :
    List (FieldReader ρ) → Reader ρ
  | [] => do
    closing
    return value
  | field :: rest => do
    if ← hasItem (index == 0) then
      let change ← within (.index index) field.read
      record.itemsFrom (index + 1) (change value) rest
    else
      advance
      if (field :: rest).any (·.isRequired) then
        failHere (.wrongLength index (record.expected ++ " with " ++
          ofNat record.fields.length ++ " elements"))
      else return value

def read (record : RecordReader ρ) : Reader ρ := do
  match ← ahead with
  | some '[' =>
    advance
    record.itemsFrom 0 record.start record.fields
  | some '{' =>
    advance
    record.membersFrom true [] record.start (← room)
  | _ => mismatch record.expected

end RecordReader

/-! Values of any shape. -/

/-- A value that is neither a list nor an object. -/
def scalar : Reader Json := do
  match ← ahead with
  | none => failHere .openValue
  | some _ =>
    match ← scalar? with
    | some value => return value
    | none => failNext .noValue

/-- A value with at most so many levels of brackets. -/
def anyValue : Nat → Reader Json
  | 0 => do
    match ← ahead with
    | some '[' | some '{' => failNext .tooDeep
    | _ => scalar
  | levels + 1 => do
    match ← ahead with
    | some '[' =>
      advance
      return .array (← itemsFrom (anyValue levels) 0 (← room))
    | some '{' =>
      advance
      return .object (← membersFrom (named (anyValue levels)) true (← room))
    | _ => scalar

end Reader

end TypedClient.Json
