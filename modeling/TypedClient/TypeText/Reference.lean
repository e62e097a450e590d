import TypedClient.Text.Basic

/-!
References inside type text: `components['schemas']['X']` refers to a schema and
`operations['x']` to an operation. Either quote may stand on either side.
-/

namespace TypedClient

open Text

def isQuoteMark (c : Char) : Bool := c == '"' || c == '\''

/-- The name in an index such as `['x']` at the start of a text, and what follows it. -/
def readIndex? (text : Text) : Option (Text × Text) :=
  match trimStart text with
  | '[' :: inner =>
    match trimStart inner with
    | mark :: rest =>
      if isQuoteMark mark ∧ rest.takeWhile (!isQuoteMark ·) ≠ [] then
        match trimStart ((rest.dropWhile (!isQuoteMark ·)).drop 1) with
        | ']' :: after => some (rest.takeWhile (!isQuoteMark ·), after)
        | _ => none
      else none
    | [] => none
  | _ => none

/-- The schema referred to at the start of a text, and what follows the reference. -/
def readSchemaRef? (text : Text) : Option (Text × Text) := do
  let rest ← "components".toList.isPrefixOf? text
  let (block, rest) ← readIndex? rest
  if block = "schemas" then readIndex? rest else none

theorem trimStart_length (text : Text) : (trimStart text).length ≤ text.length :=
  (List.dropWhile_sublist isBlank).length_le

theorem readIndex?_length {text name after : Text} (read : readIndex? text = some (name, after)) :
    after.length < text.length := by
  unfold readIndex? at read
  split at read
  · rename_i inner first
    have a := trimStart_length text
    rw [first] at a
    split at read
    · rename_i mark rest second
      have b := trimStart_length inner
      rw [second] at b
      split at read
      · split at read
        · rename_i third
          cases read
          have c := trimStart_length ((rest.dropWhile (!isQuoteMark ·)).drop 1)
          have d := (List.dropWhile_sublist (!isQuoteMark ·) (l := rest)).length_le
          rw [third] at c
          simp only [List.length_cons, List.length_drop] at *
          omega
        · simp at read
      · simp at read
    · simp at read
  · simp at read

theorem readSchemaRef?_length {text name after : Text}
    (read : readSchemaRef? text = some (name, after)) : after.length < text.length := by
  unfold readSchemaRef? at read
  simp only [Option.bind_eq_bind, Option.bind_eq_some_iff] at read
  obtain ⟨rest, opening, ⟨word, tail⟩, first, read⟩ := read
  dsimp only at read
  split at read
  · have a := readIndex?_length first
    have b := readIndex?_length read
    have c := congrArg List.length (eq_append_of_isPrefixOf? opening)
    rw [List.length_append] at c
    omega
  · simp at read

/-- A stretch of type text. -/
inductive Fragment
  | other (c : Char)
  | schema (name : Text)
  deriving DecidableEq, Repr

/-- Type text cut at its schema references, from left to right. -/
def fragments (text : Text) : List Fragment :=
  match text with
  | [] => []
  | c :: rest =>
    match _read : readSchemaRef? (c :: rest) with
    | some (name, after) => .schema name :: fragments after
    | none => .other c :: fragments rest
termination_by text.length
decreasing_by
  · exact readSchemaRef?_length _read
  · simp

/-- The schemas referred to in a type text, in order of appearance. -/
def schemaRefs (text : Text) : List Text :=
  (fragments text).filterMap fun
    | .schema name => some name
    | .other _ => none

/-- Writes `f name` for every reference to a schema. -/
def replaceSchemaRefs (f : Text → Text) (text : Text) : Text :=
  (fragments text).flatMap fun
    | .schema name => f name
    | .other c => [c]

/-- The schema of a type text that is one reference. -/
def directRef? (text : Text) : Option Text :=
  match readSchemaRef? (trim text) with
  | some (name, []) => some name
  | _ => none

/-- The element schema of `X[]`. -/
def suffixedArrayRef? (text : Text) : Option Text :=
  match readSchemaRef? text with
  | some (name, rest) =>
    match trimStart rest with
    | '[' :: inner => if trimStart inner = [']'] then some name else none
    | _ => none
  | none => none

/-- The element schema of `Array<X>`. -/
def genericArrayRef? (text : Text) : Option Text :=
  match "Array".toList.isPrefixOf? text with
  | some rest =>
    match trimStart rest with
    | '<' :: inner =>
      match readSchemaRef? (trimStart inner) with
      | some (name, after) => if trimStart after = ['>'] then some name else none
      | none => none
    | _ => none
  | none => none

/-- The element schema of a type text that is an array of one reference. -/
def arrayRef? (text : Text) : Option Text :=
  (suffixedArrayRef? (trim text)).or (genericArrayRef? (trim text))

/-- The operation of a type text that is one reference to it. -/
def operationRef? (text : Text) : Option Text :=
  match "operations".toList.isPrefixOf? (trim text) with
  | some rest =>
    match readIndex? rest with
    | some (name, []) => some name
    | _ => none
  | none => none

end TypedClient
