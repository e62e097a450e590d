import TypedClient.Json.Fault

/-!
Reading of JSON documents from the front. A reader moves a cursor over the document and gives up at
the first fault.
-/

namespace TypedClient.Json

/-- What is left of a document, and how many bytes stand before it. -/
structure Cursor where
  rest : Text
  offset : Nat
  deriving DecidableEq, Repr

abbrev Reader := StateT Cursor (Except Failure)

namespace Reader

variable {α : Type}

def peek : Reader (Option Char) := return (← get).rest.head?

def advance : Reader Unit :=
  modify fun cursor =>
    match cursor.rest with
    | [] => cursor
    | c :: rest => ⟨rest, cursor.offset + c.utf8Size⟩

/-- Takes the characters of a kind that come next. -/
def takeRun (kind : Char → Bool) : Reader Text :=
  modifyGet fun cursor =>
    let run := cursor.rest.takeWhile kind
    (run, ⟨cursor.rest.dropWhile kind, cursor.offset + run.size⟩)

def failAt (offset : Nat) (fault : Fault) : Reader α := throw ⟨fault, offset, []⟩

/-- Gives up at the cursor. -/
def failHere (fault : Fault) : Reader α := do failAt (← get).offset fault

/-- Gives up one byte beyond the cursor, or at the end of the document. -/
def failNext (fault : Fault) : Reader α := do
  let cursor ← get
  failAt (if cursor.rest = [] then cursor.offset else cursor.offset + 1) fault

/-- Puts a step in front of the path to a fault. -/
def within (segment : Segment) (reader : Reader α) : Reader α := fun cursor =>
  match reader cursor with
  | .ok result => .ok result
  | .error failure => .error { failure with path := segment :: failure.path }

def isSpace (c : Char) : Bool := c == ' ' || c == '\t' || c == '\n' || c == '\r'

/-- The next character that is no blank. -/
def ahead : Reader (Option Char) := do
  let _ ← takeRun isSpace
  peek

/-- More than the number of readings that the rest of the document has room for. -/
def room : Reader Nat := return (← get).rest.length + 1

/-- Reads a document; text after it is not looked at. -/
def run (reader : Reader α) (document : Text) : Except Failure α :=
  (reader ⟨document, 0⟩).map (·.1)

end Reader

end TypedClient.Json
