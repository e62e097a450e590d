import TypedClient.Piece.Basic

/-!
Brackets in code. Only the pair that was opened counts: a stray bracket of another kind inside it
does not matter.
-/

namespace TypedClient

def closing? : Char → Option Char
  | '{' => some '}'
  | '[' => some ']'
  | '(' => some ')'
  | _ => none

/-- Splits behind an opening bracket at the bracket that closes it, with `depth` more of its kind
open inside. -/
def splitClose (opening closing : Char) (depth : Nat) :
    List Piece → Option (List Piece × List Piece)
  | [] => none
  | .code c :: rest =>
    if c = opening then
      (splitClose opening closing (depth + 1) rest).map fun (inner, after) =>
        (.code c :: inner, after)
    else if c = closing then
      match depth with
      | 0 => some ([], rest)
      | depth + 1 =>
        (splitClose opening closing depth rest).map fun (inner, after) => (.code c :: inner, after)
    else
      (splitClose opening closing depth rest).map fun (inner, after) => (.code c :: inner, after)
  | piece :: rest =>
    (splitClose opening closing depth rest).map fun (inner, after) => (piece :: inner, after)

/-- The inside of the bracket pair that opens a list of pieces, and what follows the pair. -/
def bracketed? : List Piece → Option (List Piece × List Piece)
  | .code c :: rest =>
    match closing? c with
    | some closing => splitClose c closing 0 rest
    | none => none
  | _ => none

theorem splitClose_append {opening closing : Char} {depth : Nat} {found inner after : List Piece}
    (split : splitClose opening closing depth found = some (inner, after)) :
    found = inner ++ .code closing :: after := by
  fun_induction splitClose opening closing depth found generalizing inner after with
  | case1 => simp at split
  | case2 depth rest ih =>
    obtain ⟨⟨_, _⟩, eq, same⟩ := Option.map_eq_some_iff.mp split
    cases same
    rw [ih eq]; rfl
  | case3 => simp_all
  | case4 rest _ depth ih =>
    obtain ⟨⟨_, _⟩, eq, same⟩ := Option.map_eq_some_iff.mp split
    cases same
    rw [ih eq]; rfl
  | case5 depth c rest _ _ ih =>
    obtain ⟨⟨_, _⟩, eq, same⟩ := Option.map_eq_some_iff.mp split
    cases same
    rw [ih eq]; rfl
  | case6 depth piece rest _ ih =>
    obtain ⟨⟨_, _⟩, eq, same⟩ := Option.map_eq_some_iff.mp split
    cases same
    rw [ih eq]; rfl

inductive BracketError
  | notAnOpening (offset : Nat)
  | unbalanced (offset : Nat)
  deriving DecidableEq, Repr

def BracketError.message : BracketError → Text
  | notAnOpening offset => "no opening delimiter at offset " ++ Text.ofNat offset
  | unbalanced offset =>
    "delimiter opened at offset " ++ Text.ofNat offset ++ " is never closed"

/-- The text inside the bracket pair that opens at a byte offset. -/
def bracketedAt (text : Text) (offset : Nat) : Except BracketError Text :=
  match Text.dropBytes offset text with
  | (0, c :: rest) =>
    match closing? c with
    | none => .error (.notAnOpening offset)
    | some closing =>
      match splitClose c closing 0 (pieces rest) with
      | some (inner, _) => .ok (textOf inner)
      | none => .error (.unbalanced offset)
  | _ => .error (.notAnOpening offset)

/-- The inside of a text that is one `{ … }` literal with nothing but blanks around it. -/
def braced? (text : Text) : Option Text :=
  match Text.trimStart text with
  | '{' :: rest =>
    match splitClose '{' '}' 0 (pieces rest) with
    | some (inner, after) => if Text.allBlank (textOf after) then some (textOf inner) else none
    | none => none
  | _ => none

end TypedClient
