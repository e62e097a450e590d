import TypedClient.Proofs.Module.Allocation
import TypedClient.Proofs.Name.SchemaType
import TypedClient.Proofs.Operation.DistinctAliases
import TypedClient.Proofs.Run.Imports

/-!
The type names that the types of a tag are written with: what is imported, local names of schemas, and
aliases that are exported. Main statement: they are plain and distinct exactly if no alias refers to a
schema that is named as the import is, or to one without a letter for its name to start with.
-/

namespace TypedClient

open Text Name

namespace Module

variable {operations : List OperationTypes}

/-- The name under which all schemas are imported. -/
def importedName : Text := "components"

/-- The type names bound in the module of a tag: the import, which local names need, the local
names, and the exported aliases. -/
def typeNames (operations : List OperationTypes) : List Text :=
  (if localsFor operations = [] then [] else [importedName]) ++
    ((localsFor operations).map (·.2) ++ (aliasesOf operations).map (·.name))

/-- The schemas that the aliases of a tag refer to. -/
def schemasIn (operations : List OperationTypes) : List Text :=
  (aliasesOf operations).flatMap fun entry => schemasOf entry.target

theorem keys_localsFor (operations : List OperationTypes) :
    (localsFor operations).map (·.1) = Table.sorted (schemasIn operations) := by
  rw [localsFor, keys_localNames, schemasIn, List.flatMap_map]

theorem mem_keys_localsFor {schema : Text} :
    schema ∈ (localsFor operations).map (·.1) ↔ schema ∈ schemasIn operations := by
  rw [keys_localsFor]
  exact Table.mem_sorted

section Locals

/-- A name made unique for an item is the name asked for, perhaps with a number. -/
theorem eq_of_mem_zip_uniques {α : Type} {base : α → Text} {items : List α} {used : List Text}
    {item : α} {name : Text} (member : (item, name) ∈ items.zip (uniques used (items.map base))) :
    ∃ digits, digits.all Char.isDigit = true ∧ name = base item ++ digits := by
  induction items generalizing used with
  | nil => contradiction
  | cons first rest ih =>
    rcases List.mem_cons.mp member with here | later
    · obtain ⟨rfl, rfl⟩ := Prod.mk.inj here
      exact unique_eq (base item) used
    · exact ih later

/-- A local name is the type name of its schema, perhaps with a number. -/
theorem eq_of_mem_localsFor {entry : Text × Text} (listed : entry ∈ localsFor operations) :
    ∃ digits, digits.all Char.isDigit = true ∧ entry.2 = schemaType entry.1 ++ digits :=
  eq_of_mem_zip_uniques listed

end Locals

end Module

end TypedClient
