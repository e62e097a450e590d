import TypedClient.Piece.Basic

/-!
Unions of string literals, such as `"a" | "b"`. A union that admits anything else, `null` and
template literals included, is none of these.
-/

namespace TypedClient

/-- A literal cut short by the end of its text, in the middle of a character. -/
structure CutLiteral where
  span : Text
  deriving DecidableEq, Repr

/-- Where the reader of a union stands. -/
inductive UnionPlace
  | opening
  | afterBar
  | afterLiteral
  deriving DecidableEq, Repr

/-- The literals from a place on, or nothing if the pieces do not go on as a union. -/
def readUnion (place : UnionPlace) : List Piece → Except CutLiteral (Option (List Text))
  | [] => .ok (if place = .afterLiteral then some [] else none)
  | .comment _ :: rest => readUnion place rest
  | .code c :: rest =>
    if isAsciiBlank c then readUnion place rest
    else if c = '|' then
      match place with
      | .opening => readUnion .opening rest
      | .afterLiteral => readUnion .afterBar rest
      | .afterBar => .ok none
    else .ok none
  | .quoted span :: rest =>
    if place = .afterLiteral ∨ span.head? = some '\x60' ∨ span.length < 2 then .ok none
    else
      match insideQuotes? span with
      | none => .error ⟨span⟩
      | some literal => (readUnion .afterLiteral rest).map fun more => more.map (literal :: ·)

/-- The values of a type text made of string literals only. -/
def unionLiterals (text : Text) : Except CutLiteral (Option (List Text)) :=
  readUnion .opening (pieces text)

end TypedClient
