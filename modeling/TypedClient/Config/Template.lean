import TypedClient.Http.Method

/-! Templates of doc comments, with placeholders such as `{path}` that are filled in one pass. -/

namespace TypedClient

open Text

inductive TemplatePart
  | other (c : Char)
  | placeholder (name : Text)
  deriving DecidableEq, Repr

/-- The letters between braces at the start of a text, and what follows the closing brace. -/
def readPlaceholder? : Text → Option (Text × Text)
  | '{' :: rest =>
    match rest.dropWhile Char.isAlpha with
    | '}' :: after => some (rest.takeWhile Char.isAlpha, after)
    | _ => none
  | _ => none

theorem readPlaceholder?_length {text name after : Text}
    (read : readPlaceholder? text = some (name, after)) : after.length < text.length := by
  unfold readPlaceholder? at read
  split at read
  · rename_i rest
    split at read
    · rename_i tail remains
      cases read
      have bound := (List.dropWhile_sublist Char.isAlpha (l := rest)).length_le
      rw [remains] at bound
      simp only [List.length_cons] at *
      omega
    · simp at read
  · simp at read

/-- A template cut at its placeholders. -/
def templateParts (template : Text) : List TemplatePart :=
  match template with
  | [] => []
  | c :: rest =>
    match _read : readPlaceholder? (c :: rest) with
    | some (name, after) => .placeholder name :: templateParts after
    | none => .other c :: templateParts rest
termination_by template.length
decreasing_by
  · exact readPlaceholder?_length _read
  · simp

/-- The values that templates can name. -/
structure DocContext where
  method : Method
  path : Text
  operation : Text
  name : Text
  deriving DecidableEq, Repr

/-- The value of a placeholder, if there is one of that name. -/
def DocContext.value? (context : DocContext) (placeholder : Text) : Option Text :=
  if placeholder = "method" then some context.method.token
  else if placeholder = "path" then some context.path
  else if placeholder = "operationId" then some context.operation
  else if placeholder = "name" then some context.name
  else none

def knownPlaceholders : List Text := ["method", "path", "operationId", "name"]

def inBraces (name : Text) : Text := '{' :: name ++ ['}']

/-- Fills a template in; an unknown placeholder stays as it is. -/
def fillTemplate (template : Text) (context : DocContext) : Text :=
  (templateParts template).flatMap fun
    | .other c => [c]
    | .placeholder name => (context.value? name).getD (inBraces name)

/-- Text in which no comment end is left. -/
def breakCommentEnds (text : Text) : Text := replace "*/" "*\\/" text

/-- The lines of a doc comment: no blanks at their ends, and no empty lines. -/
def docLines (template : Text) (context : DocContext) : List Text :=
  ((lines (fillTemplate template context)).map fun line => breakCommentEnds (trimEnd line)).filter
    (· ≠ [])

structure UnknownPlaceholder where
  template : Text
  placeholder : Text
  deriving DecidableEq, Repr

def UnknownPlaceholder.message (error : UnknownPlaceholder) : Text :=
  "Unknown placeholder '" ++ inBraces error.placeholder ++ "' in " ++ error.template ++ " template"

/-- The first placeholder of a template that cannot be filled in. -/
def unknownIn? (name template : Text) : Option UnknownPlaceholder :=
  (templateParts template).findSome? fun
    | .other _ => none
    | .placeholder placeholder =>
      if placeholder ∈ knownPlaceholders then none else some ⟨name, placeholder⟩

structure DocTemplates where
  wrapper : Text
  queryHook : Text
  mutationHook : Text
  deriving DecidableEq, Repr

namespace DocTemplates

def standard : DocTemplates where
  wrapper := inBraces "method" ++ " " ++ inBraces "path"
  queryHook :=
    "Query hook for \x60" ++ inBraces "name" ++ "\x60 (" ++ inBraces "method" ++ " " ++
      inBraces "path" ++ ")."
  mutationHook :=
    "Mutation hook for \x60" ++ inBraces "name" ++ "\x60 (" ++ inBraces "method" ++ " " ++
      inBraces "path" ++ ")."

/-- The first placeholder in any template that cannot be filled in. -/
def unknown? (templates : DocTemplates) : Option UnknownPlaceholder :=
  ((unknownIn? "wrapper" templates.wrapper).or (unknownIn? "queryHook" templates.queryHook)).or
    (unknownIn? "mutationHook" templates.mutationHook)

def check (templates : DocTemplates) : Except UnknownPlaceholder Unit :=
  match templates.unknown? with
  | some error => .error error
  | none => .ok ()

end DocTemplates

end TypedClient
