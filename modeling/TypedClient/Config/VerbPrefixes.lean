import TypedClient.Http.Path
import TypedClient.Table

/-! The verbs that open the names of wrappers. -/

namespace TypedClient

open Text

/-- A verb for each method in lower case, methods ascending. -/
structure VerbPrefixes where
  entries : List (Text × Text)
  deriving DecidableEq, Repr

namespace VerbPrefixes

def standard : VerbPrefixes :=
  ⟨[("delete", "remove"), ("get", "fetch"), ("patch", "modify"), ("post", "create"),
    ("put", "update")]⟩

/-- Puts verbs over others; methods are taken in lower case. -/
def override (verbs : VerbPrefixes) (overrides : List (Text × Text)) : VerbPrefixes :=
  ⟨overrides.foldl (fun entries (method, verb) => Table.putSorted (lowerAscii method) verb entries)
    verbs.entries⟩

/-- The verb of a method, or its name in lower case. -/
def verbFor (verbs : VerbPrefixes) (method : Method) : Text :=
  (verbs.entries.lookup method.lowerName).getD method.lowerName

def all (verbs : VerbPrefixes) : List Text := verbs.entries.map (·.2)

/-- Whether a name is a verb that a capital letter follows. -/
def opensName (verb name : Text) : Bool :=
  match verb.isPrefixOf? name with
  | some (c :: _) => c.isUpper
  | _ => false

/-- The last of the entries with the longest verb. -/
def longest? (entries : List (Text × Text)) : Option (Text × Text) :=
  entries.foldl
    (fun best entry =>
      match best with
      | none => some entry
      | some earlier => if size earlier.2 ≤ size entry.2 then some entry else best)
    none

/-- The method whose verb opens a name; the longest verb decides. -/
def methodOfName? (verbs : VerbPrefixes) (name : Text) : Option Method :=
  (longest? (verbs.entries.filter fun entry => opensName entry.2 name)).bind fun entry =>
    Method.ofToken? (upperAscii entry.1)

/-- `fetchUsersId` for `GET /users/{id}`. -/
def wrapperName (verbs : VerbPrefixes) (method : Method) (path : Text) : Text :=
  verbs.verbFor method ++ Path.pascalName path

end VerbPrefixes

end TypedClient
