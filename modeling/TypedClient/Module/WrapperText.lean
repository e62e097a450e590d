import TypedClient.Http.Path

/-!
Wrappers found in the text of a module, be it generated or written by hand: every
`export const name = async (…) => { … };` whose end stands at the start of a line, with the doc
comment before it.
-/

namespace TypedClient

open Text Name

structure Argument where
  name : Text
  type : Option Text
  deriving DecidableEq, Repr

structure FoundWrapper where
  name : Text
  /-- The operation that the doc comment names. -/
  operation : Option Text
  /-- The method of the requests in the body, if they all have the same. -/
  method : Option Method
  arguments : List Argument
  returnType : Option Text
  deriving DecidableEq, Repr

namespace FoundWrapper

/-- The inside of a doc comment and what follows the comment. A star takes the next character with
it unless that ends the comment. -/
def docTail? : Text → Option (Text × Text)
  | [] => none
  | '*' :: '/' :: rest => some ([], rest)
  | '*' :: c :: rest => (docTail? rest).map fun (doc, after) => ('*' :: c :: doc, after)
  | ['*'] => none
  | c :: rest => (docTail? rest).map fun (doc, after) => (c :: doc, after)

/-- A doc comment at the start of a text after which a line starts, and that line. -/
def readDoc? (text : Text) : Option (Text × Text) := do
  let rest ← "/**".toList.isPrefixOf? text
  let (doc, after) ← docTail? rest
  if (after.takeWhile isBlank).getLast? = some '\n' then some (doc, trimStart after) else none

/-- What follows `word` and the blanks before it. -/
def skip? (word text : Text) : Option Text := word.isPrefixOf? (trimStart text)

/-- What follows `=> {`. -/
def arrow? (text : Text) : Option Text := do skip? "\x7b" (← skip? "=>" text)

/-- A return type up to the `>` that the arrow follows, on one line, and what follows the arrow's
brace. -/
def readReturn? : Text → Option (Text × Text)
  | [] => none
  | c :: rest =>
    if c == '\n' then none
    else
      match if c == '>' then arrow? rest else none with
      | some body => some ([], body)
      | none => (readReturn? rest).map fun (type, body) => (c :: type, body)

/-- The body up to a line that starts with `};`, and what follows that. -/
def readBody? : Text → Option (Text × Text)
  | [] => none
  | c :: rest =>
    match if c == '\n' then "\x7d;".toList.isPrefixOf? rest else none with
    | some after => some (['\n'], after)
    | none => (readBody? rest).map fun (body, after) => (c :: body, after)

def isNameChar (c : Char) : Bool := isWord c || c == '$'

/-- The name of a wrapper, and what follows its opening parenthesis. -/
def readName? (text : Text) : Option (Text × Text) := do
  let rest ← "export const ".toList.isPrefixOf? text
  if rest.head?.any startsIdentifier then
    let after ← skip? "=" (rest.dropWhile isNameChar)
    some (rest.takeWhile isNameChar, ← skip? "(" (← skip? "async" after))
  else none

/-- The return type, if one is written, and what follows the opening brace of the body. -/
def readResult? (text : Text) : Option (Option Text × Text) :=
  match trimStart text with
  | ':' :: rest => do
    let (type, body) ← readReturn? (← skip? "Promise<" rest)
    some (some type, body)
  | rest => (arrow? rest).map fun body => (none, body)

/-- The pieces of a wrapper as they are written. -/
structure Written where
  name : Text
  arguments : Text
  returnType : Option Text
  body : Text
  deriving DecidableEq, Repr

/-- The wrapper at the start of a text, and what follows it. -/
def readWritten? (text : Text) : Option (Written × Text) := do
  let (name, rest) ← readName? text
  let rest' ← ")".toList.isPrefixOf? (rest.dropWhile (· != ')'))
  let (returnType, rest'') ← readResult? rest'
  let (body, after) ← readBody? rest''
  some (⟨name, rest.takeWhile (· != ')'), returnType, body⟩, after)

/-- The wrapper at the start of a text with its doc comment; without one it has to stand at the
start of a line. -/
def read? (atLineStart : Bool) (text : Text) : Option (Option Text × Written × Text) :=
  match readDoc? text with
  | some (doc, line) => (readWritten? line).map fun (written, after) => (some doc, written, after)
  | none =>
    if atLineStart then (readWritten? text).map fun (written, after) => (none, written, after)
    else none

theorem docTail?_suffix {text doc after : Text} (read : docTail? text = some (doc, after)) :
    after <:+ text := by
  fun_induction docTail? text generalizing doc after with
  | case1 => simp at read
  | case2 rest => cases read; exact ⟨['*', '/'], rfl⟩
  | case3 c rest _ ih =>
    obtain ⟨⟨_, _⟩, eq, same⟩ := Option.map_eq_some_iff.mp read
    cases same
    exact (ih eq).trans ⟨['*', c], rfl⟩
  | case4 => simp at read
  | case5 c rest _ _ _ ih =>
    obtain ⟨⟨_, _⟩, eq, same⟩ := Option.map_eq_some_iff.mp read
    cases same
    exact (ih eq).trans ⟨[c], rfl⟩

theorem skip?_suffix {word text after : Text} (read : skip? word text = some after) :
    after <:+ text :=
  (isPrefixOf?_suffix read).trans (List.dropWhile_suffix isBlank)

theorem arrow?_suffix {text after : Text} (read : arrow? text = some after) : after <:+ text := by
  obtain ⟨rest, first, second⟩ := Option.bind_eq_some_iff.mp read
  exact (skip?_suffix second).trans (skip?_suffix first)

theorem readDoc?_suffix {text doc line : Text} (read : readDoc? text = some (doc, line)) :
    line <:+ text := by
  obtain ⟨rest, first, read⟩ := Option.bind_eq_some_iff.mp read
  obtain ⟨⟨_, after⟩, second, read⟩ := Option.bind_eq_some_iff.mp read
  dsimp only at read
  split at read
  · cases read
    exact ((List.dropWhile_suffix isBlank).trans (docTail?_suffix second)).trans
      (isPrefixOf?_suffix first)
  · simp at read

theorem readReturn?_suffix {text type body : Text} (read : readReturn? text = some (type, body)) :
    body <:+ text := by
  induction text generalizing type body with
  | nil => simp [readReturn?] at read
  | cons c rest ih =>
    rw [readReturn?] at read
    split at read
    · simp at read
    · split at read
      · rename_i found
        cases read
        split at found
        · exact (arrow?_suffix found).trans ⟨[c], rfl⟩
        · simp at found
      · obtain ⟨⟨_, _⟩, eq, same⟩ := Option.map_eq_some_iff.mp read
        cases same
        exact (ih eq).trans ⟨[c], rfl⟩

theorem readBody?_suffix {text body after : Text} (read : readBody? text = some (body, after)) :
    after <:+ text := by
  induction text generalizing body after with
  | nil => simp [readBody?] at read
  | cons c rest ih =>
    rw [readBody?] at read
    split at read
    · rename_i found
      cases read
      split at found
      · exact (isPrefixOf?_suffix found).trans ⟨[c], rfl⟩
      · simp at found
    · obtain ⟨⟨_, _⟩, eq, same⟩ := Option.map_eq_some_iff.mp read
      cases same
      exact (ih eq).trans ⟨[c], rfl⟩

theorem readResult?_suffix {text after : Text} {type : Option Text}
    (read : readResult? text = some (type, after)) : after <:+ text := by
  have start := List.dropWhile_suffix isBlank (l := text)
  unfold readResult? at read
  split at read
  · rename_i rest opening
    obtain ⟨promise, first, read⟩ := Option.bind_eq_some_iff.mp read
    obtain ⟨⟨_, _⟩, second, read⟩ := Option.bind_eq_some_iff.mp read
    cases read
    have colon : rest <:+ text := by
      have whole : trimStart text <:+ text := start
      rw [opening] at whole
      exact (List.suffix_cons ':' rest).trans whole
    exact ((readReturn?_suffix second).trans (skip?_suffix first)).trans colon
  · obtain ⟨_, eq, same⟩ := Option.map_eq_some_iff.mp read
    cases same
    exact (arrow?_suffix eq).trans start

theorem readName?_length {text name after : Text} (read : readName? text = some (name, after)) :
    after.length < text.length := by
  obtain ⟨rest, first, read⟩ := Option.bind_eq_some_iff.mp read
  split at read
  · obtain ⟨_, second, read⟩ := Option.bind_eq_some_iff.mp read
    obtain ⟨_, third, read⟩ := Option.bind_eq_some_iff.mp read
    obtain ⟨_, fourth, read⟩ := Option.bind_eq_some_iff.mp read
    cases read
    have a := (((skip?_suffix fourth).trans (skip?_suffix third)).trans
      (skip?_suffix second)).trans (List.dropWhile_suffix isNameChar)
    have b := congrArg List.length (eq_append_of_isPrefixOf? first)
    have c := a.length_le
    have d : "export const ".toList.length = 13 := rfl
    rw [List.length_append, d] at b
    omega
  · simp at read

theorem readWritten?_length {text after : Text} {written : Written}
    (read : readWritten? text = some (written, after)) : after.length < text.length := by
  obtain ⟨⟨_, _⟩, first, read⟩ := Option.bind_eq_some_iff.mp read
  obtain ⟨_, second, read⟩ := Option.bind_eq_some_iff.mp read
  obtain ⟨⟨_, _⟩, third, read⟩ := Option.bind_eq_some_iff.mp read
  obtain ⟨⟨_, _⟩, fourth, read⟩ := Option.bind_eq_some_iff.mp read
  cases read
  have a := readName?_length first
  have b := (((readBody?_suffix fourth).trans (readResult?_suffix third)).trans
    (isPrefixOf?_suffix second)).trans (List.dropWhile_suffix (· != ')'))
  exact Nat.lt_of_le_of_lt b.length_le a

theorem read?_length {atLineStart : Bool} {text after : Text} {doc : Option Text}
    {written : Written} (read : read? atLineStart text = some (doc, written, after)) :
    after.length < text.length := by
  unfold read? at read
  split at read
  · rename_i found
    obtain ⟨⟨_, _⟩, eq, same⟩ := Option.map_eq_some_iff.mp read
    cases same
    exact Nat.lt_of_lt_of_le (readWritten?_length eq) (readDoc?_suffix found).length_le
  · split at read
    · obtain ⟨⟨_, _⟩, eq, same⟩ := Option.map_eq_some_iff.mp read
      cases same
      exact readWritten?_length eq
    · simp at read

/-- The operation id that a doc comment names. -/
def operationIn? : Text → Option Text
  | [] => none
  | c :: rest =>
    match "@operationId".toList.isPrefixOf? (c :: rest) with
    | some after =>
      if after.head?.any isBlank ∧ trimStart after ≠ [] then
        some ((trimStart after).takeWhile (!isBlank ·))
      else operationIn? rest
    | none => operationIn? rest

/-- The method named by the request at the start of a text. -/
def readCall? (text : Text) : Option Text := do
  let rest ← "http.".toList.isPrefixOf? text
  let name := rest.takeWhile Char.isLower
  match trimStart (rest.dropWhile Char.isLower) with
  | c :: _ => if name ≠ [] ∧ (c = '(' ∨ c = '<') then some name else none
  | [] => none

/-- The methods named by the requests in a body. -/
def callsIn (afterWord : Bool) : Text → List Text
  | [] => []
  | c :: rest =>
    (if afterWord then none else readCall? (c :: rest)).toList ++ callsIn (isWord c) rest

/-- The one method that all requests in a body name. -/
def methodIn? (body : Text) : Option Method :=
  match (callsIn false body).eraseDups with
  | [name] => Method.named? name
  | _ => none

/-- Puts a character in front of the first part. -/
def consFirst (c : Char) : List Text → List Text
  | [] => [[c]]
  | first :: more => (c :: first) :: more

def nextDepth (depth : Nat) (c : Char) : Nat :=
  if "<(\x7b[".toList.contains c then depth + 1
  else if ">)\x7d]".toList.contains c then depth - 1
  else depth

/-- The parts between commas outside all brackets. -/
def splitCommas (depth : Nat) : Text → List Text
  | [] => [[]]
  | c :: rest =>
    if c == ',' && depth == 0 then [] :: splitCommas 0 rest
    else consFirst c (splitCommas (nextDepth depth c) rest)

def withoutMarks (name : Text) : Text := (name.reverse.dropWhile (· == '?')).reverse

/-- Reads `name?: type = value`. -/
def readArgument (text : Text) : Argument :=
  let declaration := trim (((cut? '=' text).map (·.1)).getD text)
  match cut? ':' declaration with
  | some (name, type) => ⟨withoutMarks (trim name), (some (trim type)).filter (· ≠ [])⟩
  | none => ⟨withoutMarks declaration, none⟩

def argumentsIn (text : Text) : List Argument :=
  (((splitCommas 0 text).map trim).filter (· ≠ [])).map readArgument

def ofWritten (doc : Option Text) (written : Written) : FoundWrapper where
  name := written.name
  operation := doc.bind operationIn?
  method := methodIn? written.body
  arguments := argumentsIn written.arguments
  returnType := (written.returnType.map trim).filter (· ≠ [])

/-- The wrappers in a text from here on. -/
def findFrom (atLineStart : Bool) (text : Text) : List FoundWrapper :=
  match text with
  | [] => []
  | c :: rest =>
    match _read : read? atLineStart (c :: rest) with
    | some (doc, written, after) => ofWritten doc written :: findFrom false after
    | none => findFrom (c == '\n') rest
termination_by text.length
decreasing_by
  · exact read?_length _read
  · simp

/-- Every wrapper in a text, in order. -/
def findAll (text : Text) : List FoundWrapper := findFrom true text

end FoundWrapper

end TypedClient
