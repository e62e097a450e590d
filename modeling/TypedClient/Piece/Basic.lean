import TypedClient.Text.Basic

/-!
Pieces of code text: characters of code, quoted spans and comments. Quotes and comment marks
inside a span or a comment open nothing. Main statement: the pieces of a text make up the text.
-/

namespace TypedClient

inductive Piece
  | code (c : Char)
  /-- A quoted span with its quotes; the text's end closes a span that is still open. -/
  | quoted (span : Text)
  /-- A comment from its mark on; a line comment stops before the line feed. -/
  | comment (span : Text)
  deriving DecidableEq, Repr

namespace Piece

def text : Piece → Text
  | code c => [c]
  | quoted span => span
  | comment span => span

def isQuote (c : Char) : Bool := c == '"' || c == '\'' || c == '\x60'

/-- The rest of a quoted span through its closing quote, and what follows. A backslash keeps the
character after it from closing the span. -/
def quotedTail (quote : Char) : Text → Text × Text
  | [] => ([], [])
  | '\\' :: c :: rest =>
    let (span, after) := quotedTail quote rest
    ('\\' :: c :: span, after)
  | c :: rest =>
    if c = quote then ([c], rest)
    else
      let (span, after) := quotedTail quote rest
      (c :: span, after)

/-- The rest of a block comment through its end mark, and what follows. -/
def blockTail : Text → Text × Text
  | [] => ([], [])
  | '*' :: '/' :: rest => (['*', '/'], rest)
  | c :: rest =>
    let (span, after) := blockTail rest
    (c :: span, after)

def inLine (c : Char) : Bool := c != '\n'

/-- The piece that begins with `c`, and what follows it. -/
def first (c : Char) (rest : Text) : Piece × Text :=
  match c, rest with
  | '/', '/' :: line => (comment ('/' :: '/' :: line.takeWhile inLine), line.dropWhile inLine)
  | '/', '*' :: block => (comment ('/' :: '*' :: (blockTail block).1), (blockTail block).2)
  | c, rest =>
    if isQuote c then (quoted (c :: (quotedTail c rest).1), (quotedTail c rest).2)
    else (code c, rest)

theorem quotedTail_append (quote : Char) (text : Text) :
    (quotedTail quote text).1 ++ (quotedTail quote text).2 = text := by
  fun_induction quotedTail quote text <;> simp_all

theorem blockTail_append (text : Text) : (blockTail text).1 ++ (blockTail text).2 = text := by
  fun_induction blockTail text <;> simp_all

theorem first_append (c : Char) (rest : Text) :
    (first c rest).1.text ++ (first c rest).2 = c :: rest := by
  unfold first
  split
  · simp [text, List.takeWhile_append_dropWhile]
  · simp [text, blockTail_append]
  · split <;> simp [text, quotedTail_append]

theorem first_text_ne_nil (c : Char) (rest : Text) : (first c rest).1.text ≠ [] := by
  unfold first
  split
  · simp [text]
  · simp [text]
  · split <;> simp [text]

theorem first_length (c : Char) (rest : Text) :
    (first c rest).2.length < rest.length + 1 := by
  have whole := congrArg List.length (first_append c rest)
  have filled := List.length_pos_iff.mpr (first_text_ne_nil c rest)
  simp only [List.length_append, List.length_cons] at whole
  omega

end Piece

/-- The pieces of a text in order. -/
def pieces (text : Text) : List Piece :=
  match text with
  | [] => []
  | c :: rest => (Piece.first c rest).1 :: pieces (Piece.first c rest).2
termination_by text.length
decreasing_by exact Piece.first_length c rest

/-- The text that pieces make up. -/
def textOf (found : List Piece) : Text := found.flatMap Piece.text

@[simp] theorem textOf_nil : textOf [] = [] := rfl

@[simp] theorem textOf_cons (piece : Piece) (rest : List Piece) :
    textOf (piece :: rest) = piece.text ++ textOf rest := rfl

@[simp] theorem textOf_append (left right : List Piece) :
    textOf (left ++ right) = textOf left ++ textOf right := by
  simp [textOf]

theorem textOf_pieces (text : Text) : textOf (pieces text) = text := by
  fun_induction pieces text with
  | case1 => rfl
  | case2 c rest ih => rw [textOf_cons, ih, Piece.first_append]

/-- Whether a piece is a comment or an ASCII blank of code. -/
def Piece.isTrivia : Piece → Bool
  | code c => isAsciiBlank c
  | quoted _ => false
  | comment _ => true

/-- What is left once blanks and comments in front are skipped. -/
def skipTrivia (found : List Piece) : List Piece := found.dropWhile Piece.isTrivia

/-- A block comment leaves a space behind, a line comment leaves nothing: its line feed stays. -/
def Piece.withoutComment : Piece → Text
  | comment ('/' :: '*' :: _) => [' ']
  | comment _ => []
  | piece => piece.text

/-- The text without its comments. -/
def stripComments (text : Text) : Text := (pieces text).flatMap Piece.withoutComment

/-- The text inside a quoted span. A span cut short by the text's end loses its last byte in place
of a quote; where that byte is only part of a character, there is no such text. -/
def insideQuotes? (span : Text) : Option Text :=
  match span.tail.reverse with
  | [] => none
  | last :: before => if last.utf8Size = 1 then some before.reverse else none

end TypedClient
