import TypedClient.Http.Method
import TypedClient.Name.Identifier
import TypedClient.Text.Word

/-! Path templates such as `/users/{id}` and the names read off them. -/

namespace TypedClient.Path

open Text Name

/-- A stretch of a path template. -/
inductive Part
  | literal (text : Text)
  | placeholder (name : Text)
  deriving DecidableEq, Repr

def isPlaceholderChar (c : Char) : Bool := c != '{' && c != '}'

/-- The name of a placeholder at the start of a text, and what follows its closing brace. -/
def placeholder? : Text → Option (Text × Text)
  | '{' :: rest =>
    match rest.takeWhile isPlaceholderChar, rest.dropWhile isPlaceholderChar with
    | c :: name, '}' :: after => some (c :: name, after)
    | _, _ => none
  | _ => none

theorem placeholder?_length {text name after : Text}
    (found : placeholder? text = some (name, after)) : after.length < text.length := by
  unfold placeholder? at found
  split at found
  · rename_i rest
    split at found
    · rename_i c tail follow _ remains
      have bound := (List.dropWhile_sublist isPlaceholderChar (l := rest)).length_le
      simp only [Option.some.injEq, Prod.mk.injEq] at found
      rw [remains, found.2] at bound
      simp only [List.length_cons] at *
      omega
    · simp at found
  · simp at found

/-- Puts a character in front of the first literal stretch. -/
def consLiteral (c : Char) : List Part → List Part
  | .literal text :: more => .literal (c :: text) :: more
  | more => .literal [c] :: more

/-- Literal text and placeholders in turn, beginning and ending with literal text. -/
def parts (path : Text) : List Part :=
  match path with
  | [] => [.literal []]
  | c :: rest =>
    match _found : placeholder? (c :: rest) with
    | some (name, after) => .literal [] :: .placeholder name :: parts after
    | none => consLiteral c (parts rest)
termination_by path.length
decreasing_by
  · exact placeholder?_length _found
  · simp

/-- The placeholder names of a path in order. -/
def placeholders (path : Text) : List Text :=
  (parts path).filterMap fun
    | .placeholder name => some name
    | .literal _ => none

/-- The stretches between slashes that are not empty. -/
def segments (path : Text) : List Text := (path.splitOn '/').filter (· ≠ [])

def withoutBraces (segment : Text) : Text := segment.filter fun c => c != '{' && c != '}'

/-- The id of an operation that declares none: `get_users_by_id` for `GET /users/{id}`. -/
def operationId (method : Text) (path : Text) : Text :=
  match segments path with
  | [] => lower method
  | pieces =>
    let words := pieces.map fun segment =>
      if segment.head? = some '{' ∧ segment.getLast? = some '}' then "by_id".toList
      else sanitize segment
    lower (method ++ "_" ++ join "_" words)

/-- The controller group of a path: its first two literal segments. -/
def group (path : Text) : Text :=
  match ((segments path).filter fun segment => segment.head? ≠ some '{').take 2 with
  | [] => "root"
  | literal => join "/" literal

/-- Whether a segment names a version of the interface, such as `v1`. -/
def isVersion : Text → Bool
  | 'v' :: c :: rest => (c :: rest).all isDecimalDigit
  | _ => false

/-- The tag of a path, or nothing for an internal path. A version is joined to the segment
after it. -/
def tag? (path : Text) : Option Text :=
  match ((segments path).map withoutBraces).filter (· ≠ []) with
  | [] => some "root"
  | [first] => if first = "internal" then none else some first
  | first :: second :: _ =>
    if isVersion first then
      if second = "internal" then none else some (first ++ "_" ++ second)
    else if first = "internal" then none else some first

/-- `GET_USERS_ID` for `GET /users/{id}`. -/
def constantName (method : Method) (path : Text) : Text :=
  let words := (((path.splitOn '/').map withoutBraces).map sanitize).filter (· ≠ [])
  let tail := if words = [] then "root".toList else join "_" words
  constant (method.lowerName ++ "_" ++ tail)

/-- The segments of a path in Pascal case, `Root` if there are none. -/
def pascalName (path : Text) : Text :=
  match (((path.splitOn '/').map withoutBraces).filter (· ≠ [])).flatMap pascal with
  | [] => "Root"
  | name => name

end TypedClient.Path
