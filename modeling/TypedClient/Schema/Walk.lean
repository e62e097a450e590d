import TypedClient.Description.Basic

/-!
The walk over schemas. It goes depth-first from each root, remembers the schemas it has been to,
and collects an alias for each relevant property, so that cycles end and no schema is expanded
twice.
-/

namespace TypedClient

/-- The alias of one property. -/
structure PropertyAlias where
  schema : Text
  property : Property
  deriving DecidableEq, Repr

namespace PropertyAlias

def name (found : PropertyAlias) : Text := propertyAliasName found.schema found.property.name

def accessType (found : PropertyAlias) : Text := found.property.accessType found.schema

def toAlias (found : PropertyAlias) : Alias := ⟨found.name, .property, .inline found.accessType⟩

end PropertyAlias

/-- What a walk has seen and found. -/
structure Walk where
  visited : List Text
  aliases : List PropertyAlias
  warnings : List Warning
  deriving DecidableEq, Repr

namespace Walk

def start : Walk := ⟨[], [], []⟩

def warn (walk : Walk) (warning : Warning) : Walk :=
  { walk with warnings := walk.warnings ++ [warning] }

/-- Adds an alias unless one of its name is there. -/
def add (walk : Walk) (found : PropertyAlias) : Walk :=
  if walk.aliases.any fun earlier => earlier.name == found.name then walk
  else { walk with aliases := walk.aliases ++ [found] }

def addRelevant (walk : Walk) (schema : Schema) : Walk :=
  (Property.ranked schema.properties).foldl (fun walk property => walk.add ⟨schema.name, property⟩)
    walk

/-- The schemas that the properties of a schema refer to, in order. -/
def refsOf (schema : Schema) : List Text :=
  schema.properties.flatMap fun property => schemaRefs property.type

/-- Goes to a schema with `steps` more schemas allowed on the way, this one included. -/
def visit (description : Description) (limit : Nat) : Nat → Text → Walk → Walk
  | 0, name, walk =>
    if name ∈ walk.visited then walk else walk.warn (.depthExceeded name (limit + 1) limit)
  | steps + 1, name, walk =>
    if name ∈ walk.visited then walk
    else
      let entered := { walk with visited := name :: walk.visited }
      if (description.schemaType? name).isNone then entered.warn (.schemaNotDeclared name)
      else
        match description.schema? name with
        | some (.ok schema) =>
          (refsOf schema).foldl (fun walk ref => visit description limit steps ref walk)
            (entered.addRelevant schema)
        | _ => entered

/-- Walks from each root in turn. -/
def fromRoots (description : Description) (limit : Nat) (roots : List Text) (walk : Walk) : Walk :=
  roots.foldl (fun walk root => visit description limit (limit + 1) root walk) walk

end Walk

end TypedClient
