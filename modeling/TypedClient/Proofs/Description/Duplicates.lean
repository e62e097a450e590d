import Mathlib.Data.List.Nodup
import TypedClient.Proofs.Operation.MadeIds
import TypedClient.Proofs.Traversal

/-!
When a description has a model. Main statement: where no two methods of paths refer to the same
operation, a model is missing exactly if two operations spelled out under the same method have paths
of the same words, or one of them has an id that another method refers to.
-/

namespace TypedClient

open Text

section Ids

variable {before rest : List Operation} {duplicate : DuplicateOperation}

/-- The two operations of a duplicate stand behind one another and have the same id. -/
theorem findDuplicate?_eq_some (found : findDuplicate? before rest = some duplicate) :
    ∃ front back, rest = front ++ duplicate.second :: back ∧
      duplicate.first ∈ before ++ front ∧ duplicate.first.id = duplicate.id ∧
      duplicate.second.id = duplicate.id := by
  induction rest generalizing before with
  | nil => contradiction
  | cons operation rest ih =>
    unfold findDuplicate? at found
    split at found
    · rename_i earlier here
      cases found
      have same : earlier.id = operation.id := by simpa using List.find?_some here
      refine ⟨[], rest, rfl, ?_, same, rfl⟩
      rw [List.append_nil]
      exact List.mem_of_find?_eq_some here
    · obtain ⟨front, back, split, first, ids⟩ := ih found
      refine ⟨operation :: front, back, congrArg (operation :: ·) split, ?_, ids⟩
      rwa [List.append_assoc] at first

theorem nodup_of_findDuplicate? (distinct : (before.map (·.id)).Nodup)
    (none : findDuplicate? before rest = none) : ((before ++ rest).map (·.id)).Nodup := by
  induction rest generalizing before with
  | nil => rwa [List.append_nil]
  | cons operation rest ih =>
    unfold findDuplicate? at none
    split at none
    · contradiction
    · rename_i absent
      have fresh : operation.id ∉ before.map (·.id) := by
        intro taken
        obtain ⟨earlier, listed, same⟩ := List.mem_map.mp taken
        have differs := List.find?_eq_none.mp absent earlier listed
        simp [same] at differs
      have grown : ((before ++ [operation]).map (·.id)).Nodup := by
        rw [List.map_append, List.map_singleton]
        exact List.nodup_append.mpr ⟨distinct, List.pairwise_singleton _ _,
          fun _ inside _ own same => fresh (List.mem_singleton.mp own ▸ same ▸ inside)⟩
      simpa using ih grown none

theorem findDuplicate?_eq_none_iff {operations : List Operation} :
    findDuplicate? [] operations = none ↔ (operations.map (·.id)).Nodup := by
  constructor
  · exact nodup_of_findDuplicate? List.nodup_nil
  · intro distinct
    by_contra present
    obtain ⟨duplicate, found⟩ := Option.ne_none_iff_exists'.mp present
    obtain ⟨front, back, split, first, own, same⟩ := findDuplicate?_eq_some found
    rw [split, List.map_append, List.map_cons] at distinct
    refine (List.nodup_append.mp distinct).2.2 _ (List.mem_map_of_mem first) _
      List.mem_cons_self (own.trans same.symm)

end Ids

namespace Description

variable {description : Description} {path : Text} {method : Method} {operation : Operation}

/-- The value that a path declares for a method, unless it is a placeholder. -/
def methodValue? (description : Description) (path : Text) (method : Method) : Option Text :=
  (description.pathBody? path).bind fun body =>
    ((members body).find? fun member => Method.named? member.name = some method).bind fun member =>
      if member.isPlaceholder then none else some member.value

/-- The id of the operation that a method of a path refers to. -/
def reference? (description : Description) (path : Text) (method : Method) : Option Text :=
  (description.methodValue? path method).bind operationRef?

/-- The methods that paths declare, each with its path, in order. -/
def pathMethods (description : Description) : List (Text × Method) :=
  (description.pathMembers.map (·.name)).eraseDups.flatMap fun path =>
    (((description.pathBody? path).map methodsIn).getD []).map fun method => (path, method)

/-- The ids that methods of paths refer to, one for each reference. -/
def references (description : Description) : List Text :=
  description.pathMethods.filterMap fun place => description.reference? place.1 place.2

theorem nodup_pathMethods (description : Description) : description.pathMethods.Nodup := by
  refine List.nodup_flatMap.mpr ⟨fun path _ => ?_, ?_⟩
  · refine List.Nodup.map (fun _ _ same => (Prod.mk.inj same).2) ?_
    cases description.pathBody? path with
    | none => exact List.nodup_nil
    | some body => exact nodup_eraseDups _
  · refine (nodup_eraseDups _).imp fun different => ?_
    intro place first second
    obtain ⟨_, _, rfl⟩ := List.mem_map.mp first
    obtain ⟨_, _, same⟩ := List.mem_map.mp second
    exact different (Prod.mk.inj same).1.symm

/-- The operations of all paths are what their methods give. -/
theorem operationsIn_pathEntries (indexed : description.Indexed) :
    operationsIn description.pathEntries.value =
      description.pathMethods.filterMap fun place =>
        (description.operation? place.1 place.2).value := by
  rw [pathEntries_value, pathMethods, operationsIn]
  induction (description.pathMembers.map (·.name)).eraseDups with
  | nil => rfl
  | cons path rest ih =>
    rw [List.flatMap_cons, List.filterMap_append, ← ih, List.filterMap_map]
    have body : description.pathBody? path =
      (description.pathMembers.find? fun member => member.name = path).bind Member.block? :=
        indexed path
    cases found : description.entryIn description.pathMembers path with
    | none =>
      have absent : description.pathBody? path = none := by
        rw [body]
        exact Option.map_eq_none_iff.mp found
      simp [found, absent]
    | some entry =>
      obtain ⟨_, inside, first, operations⟩ := operations_of_entryIn found
      rw [first] at body
      simp [found, body, operations]

theorem mem_operations_iff (indexed : description.Indexed) :
    operation ∈ operationsIn description.pathEntries.value ↔
      (description.operation? operation.path operation.method).value = some operation := by
  rw [← listed_iff_operation? indexed, operationsIn, List.mem_flatMap]
  constructor
  · rintro ⟨entry, inside, present⟩
    obtain ⟨body, _, operations⟩ := entry_of_mem_pathEntries indexed inside
    have listed := present
    rw [operations] at listed
    obtain ⟨method, _, found⟩ := List.mem_filterMap.mp listed
    exact ⟨entry, inside, (operation?_keyed found).2.symm, present, rfl⟩
  · rintro ⟨entry, inside, _, present, _⟩
    exact ⟨entry, inside, present⟩

theorem nodup_operations (indexed : description.Indexed) :
    (operationsIn description.pathEntries.value).Nodup := by
  rw [operationsIn_pathEntries indexed]
  refine List.Nodup.filterMap ?_ description.nodup_pathMethods
  intro place other operation first second
  obtain ⟨method, path⟩ := operation?_keyed first
  obtain ⟨second_method, second_path⟩ := operation?_keyed second
  exact Prod.ext (path.symm.trans second_path) (method.symm.trans second_method)

/-- The operations of a model have ids that are all distinct. -/
theorem nodup_of_model {entries : List PathEntry}
    (extracted : description.model.value = .ok entries) :
    ((operationsIn entries).map (·.id)).Nodup := by
  simp only [model, Reported.value_bind, Reported.value_pure] at extracted
  split at extracted
  · contradiction
  · rename_i none
    rw [← Except.ok.inj extracted]
    exact findDuplicate?_eq_none_iff.mp none

theorem model_ok_iff (description : Description) :
    (∃ entries, description.model.value = .ok entries) ↔
      ((operationsIn description.pathEntries.value).map (·.id)).Nodup := by
  constructor
  · rintro ⟨entries, extracted⟩
    rw [← eq_of_model extracted]
    exact nodup_of_model extracted
  · intro distinct
    refine ⟨description.pathEntries.value, ?_⟩
    simp only [model, Reported.value_bind, Reported.value_pure,
      findDuplicate?_eq_none_iff.mpr distinct]

section Indexed

variable (indexed : description.Indexed) {first second : Operation}

include indexed

theorem eq_of_place (here : first ∈ operationsIn description.pathEntries.value)
    (there : second ∈ operationsIn description.pathEntries.value)
    (method : first.method = second.method) (path : first.path = second.path) :
    first = second := by
  have one := (mem_operations_iff indexed).mp here
  have two := (mem_operations_iff indexed).mp there
  rw [method, path] at one
  exact Option.some.inj (one.symm.trans two)

end Indexed

end Description

end TypedClient
