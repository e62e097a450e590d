import TypedClient.Json.Token

/-! Values that are passed over: their brackets have to match, but nothing in them is looked at. -/

namespace TypedClient.Json.Reader

open Text

/-- Passes over the rest of a string. Surrogates need not pair up here. -/
def skipStringTail : Nat → Reader Unit
  | 0 => pure ()
  | bound + 1 => do
    match ← peek with
    | none => failHere .openString
    | some c =>
      if isControl c then failHere .controlCharacter
      else
        advance
        if c = '"' then return
        else if c = '\\' then
          let _ ← escapeWith fun _ => pure c
          skipStringTail bound
        else skipStringTail bound

def skipString : Reader Unit := do
  advance
  skipStringTail (← room)

/-- Passes over the items of a list from behind its bracket, or from behind an item. -/
def skipItems (skip : Reader Unit) (isFirst : Bool) : Nat → Reader Unit
  | 0 => pure ()
  | bound + 1 => do
    match ← ahead with
    | none => failHere .openList
    | some ']' => advance
    | some c =>
      if isFirst then
        skip
        skipItems skip false bound
      else if c = ',' then
        advance
        skip
        skipItems skip false bound
      else failNext .noListSeparator

/-- Passes over a name and its value. -/
def skipMember (skip : Reader Unit) : Reader Unit := do
  match ← ahead with
  | none => failHere .openObject
  | some '"' =>
    skipString
    match ← ahead with
    | none => failHere .openObject
    | some ':' =>
      advance
      skip
    | some _ => failNext .noColon
  | some _ => failNext .keyNotString

/-- Passes over the members of an object from behind its bracket, or from behind a member. -/
def skipMembers (skip : Reader Unit) (isFirst : Bool) : Nat → Reader Unit
  | 0 => pure ()
  | bound + 1 => do
    match ← ahead with
    | none => failHere .openObject
    | some '}' => advance
    | some c =>
      if isFirst then
        skipMember skip
        skipMembers skip false bound
      else if c = ',' then
        advance
        skipMember skip
        skipMembers skip false bound
      else failNext .noObjectSeparator

/-- Passes over a value with at most so many levels of brackets. -/
def skipValue : Nat → Reader Unit
  | 0 => pure ()
  | levels + 1 => do
    match ← ahead with
    | none => failHere .openValue
    | some 'n' => word "null"
    | some 't' => word "true"
    | some 'f' => word "false"
    | some '"' => skipString
    | some '[' =>
      advance
      skipItems (skipValue levels) true (← room)
    | some '{' =>
      advance
      skipMembers (skipValue levels) true (← room)
    | some c =>
      if opensNumber c then
        let _ ← numberLiteral .badNumber
      else failNext .noValue

/-- Passes over one value. -/
def skip : Reader Unit := do skipValue (← room)

end TypedClient.Json.Reader
