import TypedClient.Piece.Bracket

/-! Byte offsets of the pieces of a text, and of the bracket that closes another one. -/

namespace TypedClient

/-- A piece and the bytes it takes. -/
structure Placed where
  piece : Piece
  start : Nat
  stop : Nat
  deriving DecidableEq, Repr

def placeFrom (offset : Nat) : List Piece → List Placed
  | [] => []
  | piece :: rest =>
    let stop := offset + piece.text.size
    ⟨piece, offset, stop⟩ :: placeFrom stop rest

/-- The pieces of a text from a byte offset on, together with the bytes left over from a character
that the offset cuts; these count as code. -/
def piecesFrom (text : Text) (start : Nat) : Nat × List Placed :=
  let (leftover, rest) := text.dropBytes start
  (leftover, placeFrom (start + leftover) (pieces rest))

/-- The offset of the first code or quoted span at or after `start` that is not an ASCII blank, or
the size of the text. -/
def skipTriviaFrom (text : Text) (start : Nat) : Nat :=
  match text.dropBytes start with
  | (0, rest) => text.size - (textOf (skipTrivia (pieces rest))).size
  | _ => start

/-- The byte offset of the bracket that closes the one at a byte offset. -/
def closingOffset (text : Text) (offset : Nat) : Except BracketError Nat :=
  (bracketedAt text offset).map fun inner => offset + 1 + inner.size

end TypedClient
