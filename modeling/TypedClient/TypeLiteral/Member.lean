import TypedClient.Piece.Bracket

/-!
Members of type literals: the `name?: value` entries found directly inside a body. Anything
without a colon, such as a method signature, is passed over.
-/

namespace TypedClient

open Text

structure Member where
  name : Text
  optional : Bool
  value : Text
  deriving DecidableEq, Repr

namespace Member

/-- The inside of a value that is a `{ … }` literal. -/
def block? (member : Member) : Option Text := braced? member.value

end Member

/-- `never`, `undefined` and `{}` stand for no type at all. -/
def isPlaceholderType (value : Text) : Bool :=
  trim value == "never" || trim value == "undefined" || (braced? value).any allBlank

def Member.isPlaceholder (member : Member) : Bool := isPlaceholderType member.value

def isKeyChar (c : Char) : Bool := c.isAlphanum || c == '_' || c == '$'

def Piece.isKeyPiece : Piece → Bool
  | code c => isKeyChar c
  | _ => false

def Piece.isSeparator : Piece → Bool
  | code c => isAsciiBlank c || c == ';' || c == ','
  | quoted _ => false
  | comment _ => true

/-- The key at the start of a list of pieces and what follows it: a text in single or double
quotes, an index signature with its brackets, or a run of letters, digits, `_` and `$`. -/
def readKey? : List Piece → Option (Text × List Piece)
  | .quoted span :: rest =>
    if span.head? = some '\x60' then none
    else (insideQuotes? span).map fun inner => (replace "\\'" "'" (replace "\\\"" "\"" inner), rest)
  | .code c :: rest =>
    if c = '[' then
      match splitClose '[' ']' 0 rest with
      | some (inner, after) => some ('[' :: textOf inner ++ [']'], after)
      | none => none
    else if isKeyChar c then
      some (c :: textOf (rest.takeWhile Piece.isKeyPiece), rest.dropWhile Piece.isKeyPiece)
    else none
  | _ => none

theorem readKey?_length {found after : List Piece} {name : Text}
    (read : readKey? found = some (name, after)) : after.length < found.length := by
  unfold readKey? at read
  split at read
  · split at read
    · simp at read
    · obtain ⟨_, _, same⟩ := Option.map_eq_some_iff.mp read
      cases same
      simp
  · split at read
    · split at read
      · rename_i split
        cases read
        rw [splitClose_append split]
        simp only [List.length_cons, List.length_append]
        omega
      · simp at read
    · split at read
      · rename_i rest _ _
        cases read
        have bound := (List.dropWhile_sublist Piece.isKeyPiece (l := rest)).length_le
        simp only [List.length_cons]
        omega
      · simp at read
  · simp at read

/-- Whether a member's key, and its colon, open a text. -/
def opensWithKey (text : Text) : Bool :=
  let afterKey : Option Text :=
    match text with
    | '"' :: rest => (cut? '"' rest).map (·.2)
    | '\'' :: rest => (cut? '\'' rest).map (·.2)
    | c :: rest => if isKeyChar c then some (rest.dropWhile isKeyChar) else none
    | [] => none
  match afterKey.map trimStart with
  | some (':' :: _) => true
  | some ('?' :: rest) => (trimStart rest).head? = some ':'
  | _ => false

/-- Whether a text goes on with a member, after blanks and perhaps `readonly`. -/
def opensWithMember (text : Text) : Bool :=
  let start := trimStart text
  opensWithKey start ||
    match "readonly".toList.isPrefixOf? start with
    | some (c :: rest) => isBlank c && opensWithKey (trimStart rest)
    | _ => false

def asksForMore (c : Char) : Bool :=
  c == '|' || c == '&' || c == ':' || c == '=' || c == '<' || c == ','

/-- Whether a line feed ends a value: something stands before it that does not ask for more, and a
member stands after it. `before` is the value read so far, last character first. -/
def endsLine (before : Text) (after : List Piece) : Bool :=
  match before.dropWhile isBlank with
  | [] => false
  | c :: _ => !asksForMore c && opensWithMember (textOf (skipTrivia after))

/-- A bracket pair that is open while a value is read, with `depth` more of its kind inside. -/
structure OpenPair where
  opening : Char
  closing : Char
  depth : Nat
  deriving DecidableEq, Repr

/-- The open pair after one more character of code. -/
def OpenPair.next (pair : OpenPair) (c : Char) : Option OpenPair :=
  if c = pair.opening then some { pair with depth := pair.depth + 1 }
  else if c = pair.closing then
    match pair.depth with
    | 0 => none
    | depth + 1 => some { pair with depth }
  else some pair

def OpenPair.start? (c : Char) : Option OpenPair :=
  (closing? c).map fun closing => ⟨c, closing, 0⟩

/-- The angle brackets open after one more character of code. A `>` right after `=` is an arrow. -/
def nextAngles (angles : Nat) (before : Text) (c : Char) : Nat :=
  if c = '<' then angles + 1
  else if c = '>' then if before.head? = some '=' then angles else angles - 1
  else angles

/-- Whether a character of code ends a value outside all bracket pairs. -/
def endsValue (angles : Nat) (before : Text) (c : Char) (after : List Piece) : Bool :=
  angles == 0 && (c == ';' || c == ',' || (c == '\n' && endsLine before after))

/-- Splits a value off a list of pieces; what is left starts with the piece that ended it. A
bracket pair that is never closed takes all that is left. -/
def splitValue (angles : Nat) (pair : Option OpenPair) (before : Text) :
    List Piece → List Piece × List Piece
  | [] => ([], [])
  | .code c :: rest =>
    match pair with
    | some outer =>
      let (value, after) := splitValue angles (outer.next c) (c :: before) rest
      (.code c :: value, after)
    | none =>
      if endsValue angles before c rest then ([], .code c :: rest)
      else
        let (value, after) :=
          splitValue (nextAngles angles before c) (OpenPair.start? c) (c :: before) rest
        (.code c :: value, after)
  | piece :: rest =>
    let (value, after) := splitValue angles pair (piece.text.reverse ++ before) rest
    (piece :: value, after)

/-- The value at the start of a list of pieces, and what follows from its end on. -/
def readValue (found : List Piece) : List Piece × List Piece := splitValue 0 none [] found

theorem splitValue_append (angles : Nat) (pair : Option OpenPair) (before : Text)
    (found : List Piece) :
    (splitValue angles pair before found).1 ++ (splitValue angles pair before found).2 = found := by
  fun_induction splitValue angles pair before found <;> simp_all

theorem readValue_length (found : List Piece) : (readValue found).2.length ≤ found.length := by
  have whole := congrArg List.length (splitValue_append 0 none [] found)
  rw [List.length_append] at whole
  unfold readValue
  omega

/-- Reads over `readonly` where another key follows it after a blank or comment. -/
def readModifiedKey? (found : List Piece) : Option (Text × List Piece) :=
  match readKey? found with
  | none => none
  | some (name, after) =>
    if name = "readonly" ∧ (skipTrivia after).length < after.length then
      some ((readKey? (skipTrivia after)).getD (name, after))
    else some (name, after)

theorem skipTrivia_length (found : List Piece) : (skipTrivia found).length ≤ found.length :=
  (List.dropWhile_sublist Piece.isTrivia).length_le

theorem readModifiedKey?_length {found after : List Piece} {name : Text}
    (read : readModifiedKey? found = some (name, after)) : after.length < found.length := by
  unfold readModifiedKey? at read
  split at read
  · simp at read
  · rename_i name' after' first
    have shorter := readKey?_length first
    split at read
    · cases second : readKey? (skipTrivia after') with
      | none =>
        rw [second] at read
        cases read
        exact shorter
      | some pair =>
        rw [second] at read
        cases read
        have := readKey?_length second
        have := skipTrivia_length after'
        omega
    · cases read
      exact shorter

/-- The optional mark, if there is one, and what follows it and the blanks around it. -/
def readMark (found : List Piece) : Bool × List Piece :=
  match skipTrivia found with
  | .code '?' :: rest => (true, skipTrivia rest)
  | other => (false, other)

theorem readMark_length (found : List Piece) : (readMark found).2.length ≤ found.length := by
  have first := skipTrivia_length found
  unfold readMark
  split
  · rename_i rest eq
    have second := skipTrivia_length rest
    rw [eq] at first
    simp only [List.length_cons] at first ⊢
    omega
  · exact first

/-- A member, and the pieces of its body from behind its colon on. -/
structure Entry where
  member : Member
  following : List Piece
  deriving DecidableEq, Repr

/-- Where the value of an entry starts in its body, in bytes. -/
def Entry.offset (body : Text) (entry : Entry) : Nat :=
  body.size - (trimStart (textOf entry.following)).size

/-- The entry at the start of a list of pieces, if there is one, and what follows the piece that
ends it. -/
def readEntry (found : List Piece) : Option Entry × List Piece :=
  match readModifiedKey? found with
  | none => (none, (readValue found).2.drop 1)
  | some (name, after) =>
    match readMark after with
    | (optional, .code ':' :: rest) =>
      let (value, left) := readValue rest
      (some ⟨⟨name, optional, trim (textOf value)⟩, rest⟩, left.drop 1)
    | (_, other) => (none, (readValue other).2.drop 1)

theorem readEntry_length (found : List Piece) (present : found ≠ []) :
    (readEntry found).2.length < found.length := by
  have filled := List.length_pos_iff.mpr present
  unfold readEntry
  split
  · have := readValue_length found
    simp only [List.length_drop]
    omega
  · rename_i name after read
    have key := readModifiedKey?_length read
    have mark := readMark_length after
    split
    · rename_i rest eq
      have := readValue_length rest
      rw [eq] at mark
      simp only [List.length_cons, List.length_drop] at *
      omega
    · rename_i other _ eq
      have := readValue_length other
      rw [eq] at mark
      simp only [List.length_drop] at *
      omega

theorem dropSeparators_length (found : List Piece) :
    (found.dropWhile Piece.isSeparator).length ≤ found.length :=
  (List.dropWhile_sublist Piece.isSeparator).length_le

def entriesFrom (found : List Piece) : List Entry :=
  match _start : found.dropWhile Piece.isSeparator with
  | [] => []
  | piece :: rest =>
    (readEntry (piece :: rest)).1.toList ++ entriesFrom (readEntry (piece :: rest)).2
termination_by found.length
decreasing_by
  have entry := readEntry_length (piece :: rest) (by simp)
  have bound := dropSeparators_length found
  rw [_start] at bound
  omega

/-- The entries found directly inside the body of a type literal, in order. -/
def entries (body : Text) : List Entry := entriesFrom (pieces body)

def members (body : Text) : List Member := (entries body).map (·.member)

def findMember? (body name : Text) : Option Member :=
  (members body).find? fun member => member.name = name

end TypedClient
