import TypedClient.Text.Word
import TypedClient.TypeLiteral.Member

/-!
Blocks of an interface description: the bodies of its declarations, and of members inside them
under a dotted name such as `components.schemas`. A declaration is looked for line by line; text
inside comments is not told apart from code here.
-/

namespace TypedClient

open Text

inductive BlockError
  | noDeclaration (name : Text)
  | unclosed (error : BracketError)
  | noMember (name : Text)
  | notObject (name : Text)
  deriving DecidableEq, Repr

def BlockError.message : BlockError → Text
  | noDeclaration name => "declaration '" ++ name ++ "' not found"
  | unclosed error => error.message
  | noMember name => "member '" ++ name ++ "' not found"
  | notObject name => "member '" ++ name ++ "' is not an object literal"

/-- What follows `word` and at least one blank after it. -/
def afterWord? (word text : Text) : Option Text :=
  match word.isPrefixOf? text with
  | some (c :: rest) => if isBlank c then some (trimStart rest) else none
  | _ => none

def skipWord (word text : Text) : Text := (afterWord? word text).getD text

/-- What follows a name that ends at a word boundary; `previous` stands before the name. -/
def afterName? (previous : Char) (name text : Text) : Option Text :=
  match name.isPrefixOf? text with
  | some rest =>
    if isWord (name.getLast?.getD previous) != rest.head?.any isWord then some rest else none
  | none => none

/-- What follows at least one blank and a name. -/
def afterBlankName? (name : Text) : Text → Option Text
  | [] => none
  | c :: rest =>
    if isBlank c then (afterBlankName? name rest).or (afterName? c name rest) else none

/-- What follows the opening brace of a body, after blanks and perhaps an equals sign. -/
def afterBrace? (text : Text) : Option Text :=
  match trimStart text with
  | '{' :: rest => some rest
  | '=' :: rest =>
    match trimStart rest with
    | '{' :: rest => some rest
    | _ => none
  | _ => none

/-- What follows the opening brace of a declaration of `name` that a line starts with. -/
def declarationBody? (name line : Text) : Option Text := do
  let start := line.dropWhile fun c => c == ' ' || c == '\t'
  let start := skipWord "declare" (skipWord "export" start)
  let rest ← ("interface".toList.isPrefixOf? start).or ("type".toList.isPrefixOf? start)
  afterBrace? (← afterBlankName? name rest)

/-- What follows the opening brace of the first declaration of `name`. -/
def findDeclaration? (name : Text) (atLineStart : Bool) : Text → Option Text
  | [] => none
  | c :: rest =>
    (if atLineStart then declarationBody? name (c :: rest) else none).or
      (findDeclaration? name (c == '\n') rest)

/-- A stretch of a text: the byte offset it starts at, and its characters. -/
structure Block where
  start : Nat
  body : Text
  deriving DecidableEq, Repr

def Block.stop (block : Block) : Nat := block.start + block.body.size

/-- Goes down from a block into members of these names. -/
def Block.descend (block : Block) : List Text → Except BlockError Block
  | [] => .ok block
  | name :: rest =>
    match (entries block.body).find? fun entry => entry.member.name = name with
    | none => .error (.noMember name)
    | some entry =>
      match entry.member.block? with
      | none => .error (.notObject name)
      | some body => descend ⟨block.start + entry.offset block.body + 1, body⟩ rest

/-- The body of the declaration of a name. -/
def declared (text name : Text) : Except BlockError Block :=
  match findDeclaration? name true text with
  | none => .error (.noDeclaration name)
  | some rest =>
    let start := size text - size rest
    match splitClose '{' '}' 0 (pieces rest) with
    | some (inner, _) => .ok ⟨start, textOf inner⟩
    | none => .error (.unclosed (.unbalanced (start - 1)))

/-- The block of a dotted name. -/
def locate (text dotted : Text) : Except BlockError Block :=
  match dotted.splitOn '.' with
  | [] => .error (.noDeclaration [])
  | root :: names => do (← declared text root).descend names

end TypedClient
