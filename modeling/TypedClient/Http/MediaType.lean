import TypedClient.Text.Basic

/-!
Media types such as `application/problem+json`, as far as they sort the entries of a content
block.
-/

namespace TypedClient

open Text

structure MediaType where
  type : Text
  subtype : Text
  suffix : Option Text
  deriving DecidableEq, Repr

namespace MediaType

def isNameChar (c : Char) : Bool := c.isAlphanum || "!#$&-^_.+%*'".toList.contains c

/-- A name has at most 127 characters and starts with a letter, a digit or `*`. -/
def isName (name : Text) : Bool :=
  match name with
  | [] => false
  | c :: _ => (c.isAlphanum || c == '*') && name.length ≤ 127 && name.all isNameChar

def skipSpaces (text : Text) : Text := text.dropWhile fun c => c == ' ' || c == '\t'

/-- What follows a parameter value, which consists of the characters of names or stands in double
quotes. Within quotes a line feed needs a backslash before it, as a quote does. -/
def afterValue? : Text → Option Text
  | '"' :: rest => afterQuoted? rest
  | rest => some (rest.dropWhile isNameChar)
where
  afterQuoted? : Text → Option Text
    | [] => none
    | '"' :: rest => some rest
    | '\\' :: _ :: rest => afterQuoted? rest
    | '\n' :: _ => none
    | _ :: rest => afterQuoted? rest

/-- What follows the parameter at the start of a text, its semicolon included; nothing may follow
the last one but spaces. -/
def afterParameter? (text : Text) : Option Text :=
  match skipSpaces text with
  | ';' :: rest =>
    match skipSpaces rest with
    | [] => some []
    | start =>
      if isName (start.takeWhile isNameChar) then
        match start.dropWhile isNameChar with
        | '=' :: value => afterValue? value
        | _ => none
      else none
  | _ => none

theorem afterQuoted?_length {text rest : Text} (found : afterValue?.afterQuoted? text = some rest) :
    rest.length ≤ text.length := by
  fun_induction afterValue?.afterQuoted? text <;> grind

theorem afterValue?_length {text rest : Text} (found : afterValue? text = some rest) :
    rest.length ≤ text.length := by
  unfold afterValue? at found
  split at found
  · have := afterQuoted?_length found
    simp only [List.length_cons]
    omega
  · cases found
    exact (List.dropWhile_sublist _).length_le

theorem skipSpaces_length (text : Text) : (skipSpaces text).length ≤ text.length :=
  (List.dropWhile_sublist _).length_le

theorem afterParameter?_length {text rest : Text} (found : afterParameter? text = some rest) :
    rest.length < text.length := by
  have first := skipSpaces_length text
  unfold afterParameter? at found
  split at found
  · rename_i inner opening
    have second := skipSpaces_length inner
    rw [opening, List.length_cons] at first
    split at found
    · cases found
      exact Nat.lt_of_lt_of_le (Nat.succ_pos inner.length) first
    · split at found
      · split at found
        · rename_i value remains
          have third := (List.dropWhile_sublist isNameChar (l := skipSpaces inner)).length_le
          have fourth := afterValue?_length found
          rw [remains, List.length_cons] at third
          omega
        · simp at found
      · simp at found
  · simp at found

/-- Whether a text is a list of parameters. -/
def areParameters (text : Text) : Bool :=
  skipSpaces text = [] ||
    match _found : afterParameter? text with
    | some rest => areParameters rest
    | none => false
termination_by text.length
decreasing_by exact afterParameter?_length _found

/-- Splits at the last `+`. -/
def splitSuffix (text : Text) : Text × Option Text :=
  match text.reverse.span (· != '+') with
  | (suffix, _ :: subtype) => (subtype.reverse, some suffix.reverse)
  | _ => (text, none)

/-- A suffix goes on as a name after its first character. -/
def isSuffix (suffix : Text) : Bool := isName (suffix.drop 1)

def ofText? (text : Text) : Option MediaType := do
  let (type, rest) ← cut? '/' text
  let (subtype, suffix) := splitSuffix (rest.takeWhile isNameChar)
  let parameters := rest.dropWhile isNameChar
  if isName type && isName subtype && suffix.all isSuffix &&
      areParameters parameters then
    some ⟨type, subtype, suffix⟩
  else none

end MediaType

inductive ContentCategory
  | json
  | formUrlEncoded
  | multipart
  | text
  | binary
  deriving DecidableEq, Repr

namespace ContentCategory

def ofMediaType (media : MediaType) : ContentCategory :=
  if media.type = ['*'] ∧ media.subtype = ['*'] then json
  else if media.type = "multipart" then multipart
  else if media.type = "application" ∧ media.subtype = "x-www-form-urlencoded" then formUrlEncoded
  else if media.type = "application" ∧ media.subtype = "json" then json
  else if media.suffix = some "json".toList then json
  else if media.type = "image" ∨ media.type = "audio" ∨ media.type = "video" then binary
  else if media.type = "application" ∧ (media.subtype = "pdf" ∨ media.subtype = "octet-stream") then
    binary
  else text

/-- A key that is no media type counts as JSON. -/
def ofKey (key : Text) : ContentCategory :=
  match MediaType.ofText? key with
  | some media => ofMediaType media
  | none => json

end ContentCategory

end TypedClient
