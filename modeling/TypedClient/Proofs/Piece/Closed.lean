import TypedClient.Proofs.Piece.Quotes

/-!
Pieces that have their own end. Main statement: pieces all of which are closed are scanned again
whatever text stands behind them, unless a slash at their end would make a comment mark.
-/

namespace TypedClient

namespace Piece

/-- Whether a piece has its own end: a quoted span its quote, a block comment its mark. -/
def isClosed : Piece → Bool
  | code _ => true
  | quoted span => isClosedSpan span
  | comment ('/' :: '*' :: block) => endsBlock block
  | comment _ => false

/-- Whether a character begins neither a quoted span nor a comment, whatever follows it. -/
def isInert (c : Char) : Bool := !isQuote c && c != '/'

end Piece

/-- Whether every quoted span and every comment is closed, a line comment by its line feed. -/
def allClosed : List Piece → Bool
  | [] => true
  | .comment span :: rest =>
    ((Piece.comment span).isClosed || rest.head? == some (.code '\n')) && allClosed rest
  | piece :: rest => piece.isClosed && allClosed rest

namespace Piece

variable {piece : Piece}

/-- What closes a line comment stands behind it, so the last piece is none. -/
theorem isClosed_of_getLast? {found : List Piece} (closed : allClosed found = true)
    (last : found.getLast? = some piece) : piece.isClosed = true := by
  induction found with
  | nil => contradiction
  | cons first rest ih =>
    cases rest with
    | nil =>
      obtain rfl : first = piece := by simpa using last
      cases first with
      | code c => rfl
      | quoted span => simpa [allClosed] using closed
      | comment span => simpa [allClosed] using closed
    | cons second rest =>
      refine ih ?_ (by rwa [List.getLast?_cons_cons] at last)
      cases first <;> exact ((Bool.and_eq_true _ _).mp closed).2

theorem endsBefore_of_isClosed {former next : Option Char} (closed : piece.isClosed = true)
    (scanned : piece.EndsBefore former)
    (mark : piece = code '/' → next ≠ some '/' ∧ next ≠ some '*') : piece.EndsBefore next := by
  unfold isClosed at closed
  split at closed
  · exact endsBefore_code scanned.code.1 fun slash => mark (by rw [slash])
  · exact endsBefore_of_isClosedSpan closed next
  · exact endsBefore_block closed next
  · contradiction

end Piece

namespace Aligned

variable {found after : List Piece}

/-- Closed pieces end wherever others begin. -/
theorem append_of_allClosed (front : Aligned found) (closed : allClosed found = true)
    (back : Aligned after)
    (mark : found.getLast? = some (.code '/') →
      (textOf after).head? ≠ some '/' ∧ (textOf after).head? ≠ some '*') :
    Aligned (found ++ after) := by
  refine front.append back fun piece last => ?_
  obtain ⟨before, rfl⟩ := List.getLast?_eq_some_iff.mp last
  exact Piece.endsBefore_of_isClosed (Piece.isClosed_of_getLast? closed last)
    front.of_append_right.1 fun slash => mark (slash ▸ last)

/-- Inert characters are code. -/
theorem append_code {run : Text} (inert : run.all Piece.isInert = true) (back : Aligned after) :
    Aligned (run.map .code ++ after) := by
  induction run with
  | nil => exact back
  | cons c rest ih =>
    rw [List.all_cons, Bool.and_eq_true, Piece.isInert, Bool.and_eq_true, Bool.not_eq_true',
      bne_iff_ne] at inert
    exact ⟨Piece.endsBefore_code inert.1.1 fun slash => absurd slash inert.1.2, ih inert.2⟩

end Aligned

@[simp] theorem textOf_map_code (run : Text) : textOf (run.map .code) = run := by
  induction run with
  | nil => rfl
  | cons c rest ih =>
    rw [List.map_cons, textOf_cons, ih]
    rfl

theorem isInert_of_isBlank {c : Char} (blank : isBlank c = true) : Piece.isInert c = true := by
  obtain ⟨plain, other⟩ := plain_of_isBlank blank
  simp [Piece.isInert, plain, other]

/-- Inert characters are scanned as code, whatever follows. -/
theorem pieces_append_code {run : Text} (inert : run.all Piece.isInert = true) (rest : Text) :
    pieces (run ++ rest) = run.map .code ++ pieces rest := by
  have scanned := pieces_textOf (Aligned.append_code inert (aligned_pieces rest))
  rwa [textOf_append, textOf_map_code, textOf_pieces] at scanned

end TypedClient
