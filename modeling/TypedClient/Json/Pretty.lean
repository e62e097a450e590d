import TypedClient.Json.Basic

/-! JSON documents written over several lines, two spaces for each level. -/

namespace TypedClient

open Text

namespace Json

def hexDigit (n : Nat) : Char := Nat.digitChar n

/-- A character inside a string: quotes, backslashes and control characters are escaped. -/
def escapeChar (c : Char) : Text :=
  if c == '"' then ['\\', '"']
  else if c == '\\' then ['\\', '\\']
  else if c == '\x08' then ['\\', 'b']
  else if c == '\x0c' then ['\\', 'f']
  else if c == '\n' then ['\\', 'n']
  else if c == '\r' then ['\\', 'r']
  else if c == '\t' then ['\\', 't']
  else if c.toNat < 32 then "\\u00" ++ [hexDigit (c.toNat / 16), hexDigit (c.toNat % 16)]
  else [c]

def quote (text : Text) : Text := '"' :: text.flatMap escapeChar ++ ['"']

def newLine (depth : Nat) : Text := '\n' :: List.replicate (2 * depth) ' '

mutual

def prettyAt (depth : Nat) : Json → Text
  | null => "null"
  | bool b => if b then "true" else "false"
  | number n => n.text
  | string text => quote text
  | array [] => "[]"
  | array (item :: items) =>
    '[' :: prettyItems (depth + 1) (item :: items) ++ newLine depth ++ [']']
  | object [] => ['{', '}']
  | object (member :: members) =>
    '{' :: prettyMembers (depth + 1) (member :: members) ++ newLine depth ++ ['}']

def prettyItems (depth : Nat) : List Json → Text
  | [] => []
  | item :: rest =>
    newLine depth ++ prettyAt depth item ++
      (if rest.isEmpty then [] else ',' :: prettyItems depth rest)

def prettyMembers (depth : Nat) : List (Text × Json) → Text
  | [] => []
  | (name, value) :: rest =>
    newLine depth ++ quote name ++ ": " ++ prettyAt depth value ++
      (if rest.isEmpty then [] else ',' :: prettyMembers depth rest)

end

def pretty (document : Json) : Text := prettyAt 0 document

end Json

end TypedClient
