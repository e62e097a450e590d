import Mathlib.Data.List.Basic
import TypedClient.Proofs.Description.Location

/-!
All paths of a description against its single operations. Main statement: the list of all paths
holds what asking for each method of each path gives, each path once in the order of first
declaration and the methods of a path in the order of the first members that carry them.
-/

namespace TypedClient

open Text

section Distinct

variable {α β : Type}

theorem eraseDups_filter [BEq α] [LawfulBEq α] (keep : α → Bool) (items : List α) :
    (items.filter keep).eraseDups = items.eraseDups.filter keep := by
  match items with
  | [] => rfl
  | a :: rest =>
    have smaller := eraseDups_filter keep (rest.filter fun b => !b == a)
    have swap : (rest.filter keep).filter (fun b => !b == a) =
        (rest.filter fun b => !b == a).filter keep := by
      simp only [List.filter_filter, Bool.and_comm]
    cases kept : keep a with
    | true =>
      rw [List.filter_cons_of_pos kept, List.eraseDups_cons, List.eraseDups_cons, swap, smaller,
        List.filter_cons_of_pos kept]
    | false =>
      have absent : (rest.filter keep).filter (fun b => !b == a) = rest.filter keep := by
        apply List.filter_eq_self.mpr
        intro b member
        have other : b ≠ a := fun same => by simp [same, kept] at member
        simpa using other
      have dropped : ¬ keep a = true := by simp [kept]
      rw [List.eraseDups_cons, List.filter_cons_of_neg dropped, List.filter_cons_of_neg dropped,
        ← smaller, ← swap, absent]
termination_by items.length
decreasing_by exact Nat.lt_succ_of_le (List.length_filter_le _ _)

theorem nodup_eraseDups [BEq α] [LawfulBEq α] (items : List α) : items.eraseDups.Nodup := by
  match items with
  | [] => exact List.nodup_nil
  | a :: rest =>
    rw [List.eraseDups_cons, List.nodup_cons]
    exact ⟨by simp [List.mem_eraseDups], nodup_eraseDups (rest.filter fun b => !b == a)⟩
termination_by items.length
decreasing_by exact Nat.lt_succ_of_le (List.length_filter_le _ _)

theorem map_filterMap_of_key {find : α → Option β} {key : β → α}
    (keyed : ∀ a b, find a = some b → key b = a) (items : List α) :
    (items.filterMap find).map key = items.filter fun a => (find a).isSome := by
  induction items with
  | nil => rfl
  | cons a rest ih =>
    cases found : find a with
    | none => simp [found, ih]
    | some b => simp [found, ih, keyed a b found]

end Distinct

/-- The methods of a path, each once, in the order of the first members that carry them. -/
def methodsIn (body : Text) : List Method :=
  ((members body).filterMap fun member => Method.named? member.name).eraseDups

namespace Description

variable {description : Description} {path : Text} {method : Method} {operation : Operation}

theorem resolve_keyed {value : Text}
    (found : (description.resolve path method value).value = some operation) :
    operation.method = method ∧ operation.path = path := by
  unfold resolve at found
  split at found
  · dsimp only at found
    split at found
    · cases found
      exact ⟨rfl, rfl⟩
    · cases found
  · split at found
    · cases found
      exact ⟨rfl, rfl⟩
    · cases found

theorem operation?_value (description : Description) (path : Text) (method : Method) :
    (description.operation? path method).value =
      (description.pathBody? path).bind fun body =>
        ((members body).find? fun member => Method.named? member.name = some method).bind
          fun member =>
            if member.isPlaceholder then none
            else (description.resolve path method member.value).value := by
  unfold operation?
  cases description.pathBody? path with
  | none => rfl
  | some body =>
    dsimp only [Option.bind_some]
    cases (members body).find? fun member => Method.named? member.name = some method with
    | none => rfl
    | some member =>
      dsimp only [Option.bind_some]
      split <;> rfl

theorem operation?_keyed (found : (description.operation? path method).value = some operation) :
    operation.method = method ∧ operation.path = path := by
  rw [operation?_value] at found
  obtain ⟨body, _, found⟩ := Option.bind_eq_some_iff.mp found
  obtain ⟨member, _, found⟩ := Option.bind_eq_some_iff.mp found
  split at found
  · cases found
  · exact resolve_keyed found

theorem known_of_operation? (found : (description.operation? path method).value = some operation) :
    operation.method ∈ Method.known := by
  rw [(operation?_keyed found).1]
  rw [operation?_value] at found
  obtain ⟨body, _, found⟩ := Option.bind_eq_some_iff.mp found
  obtain ⟨member, first, _⟩ := Option.bind_eq_some_iff.mp found
  have carries : Method.named? member.name = some method := by
    simpa using List.find?_some first
  exact List.mem_of_find?_eq_some carries

theorem mem_methodsIn_of_operation? {body : Text} (here : description.pathBody? path = some body)
    (found : (description.operation? path method).value = some operation) :
    method ∈ methodsIn body := by
  rw [operation?_value, here, Option.bind_some] at found
  obtain ⟨member, first, _⟩ := Option.bind_eq_some_iff.mp found
  have carries : Method.named? member.name = some method := by
    simpa using List.find?_some first
  exact List.mem_eraseDups.mpr
    (List.mem_filterMap.mpr ⟨member, List.mem_of_find?_eq_some first, carries⟩)

/-- The operations of a path are what each of its methods gives. A method that gave nothing is
asked again in vain. -/
theorem operationsOn_value (description : Description) (path : Text) (taken methods : List Method) :
    (description.operationsOn path taken methods).value =
      (methods.filter fun method => method ∉ taken).eraseDups.filterMap
        fun method => (description.operation? path method).value := by
  induction methods generalizing taken with
  | nil => rfl
  | cons method rest ih =>
    unfold operationsOn
    by_cases known : method ∈ taken
    · rw [if_pos known, ih, List.filter_cons_of_neg (by simpa using known)]
    have others : (rest.filter fun later => later ∉ taken).filter (fun later => !later == method) =
        rest.filter fun later => later ∉ method :: taken := by
      rw [List.filter_filter]
      apply List.filter_congr
      intro later _
      rw [Bool.eq_iff_iff]
      simp
    rw [if_neg known, List.filter_cons_of_pos (by simpa using known), List.eraseDups_cons, others,
      Reported.value_bind]
    cases found : (description.operation? path method).value with
    | some operation => simp [found, ih]
    | none =>
      rw [← others, eraseDups_filter, List.filterMap_cons, List.filterMap_filter]
      simp only [found, ih taken]
      apply List.filterMap_congr
      intro later _
      by_cases same : later = method
      · simp [same, found]
      · simp [same]

/-- The entry of a path by the first of these members that declares it. -/
def entryIn (description : Description) (declared : List Member) (path : Text) :
    Option PathEntry :=
  ((declared.find? fun member => member.name = path).bind Member.block?).map fun body =>
    ⟨path, (description.operationsOn path []
      ((members body).filterMap fun member => Method.named? member.name)).value⟩

theorem entryIn_cons_of_ne {member : Member} {declared : List Member} (other : member.name ≠ path) :
    description.entryIn (member :: declared) path = description.entryIn declared path := by
  simp [entryIn, other]

theorem entryIn_cons_self (member : Member) (declared : List Member) :
    description.entryIn (member :: declared) member.name =
      member.block?.map fun body => ⟨member.name, (description.operationsOn member.name []
        ((members body).filterMap fun declared => Method.named? declared.name)).value⟩ := by
  simp [entryIn]

theorem entriesOf_value (description : Description) (seen : List Text) (declared : List Member) :
    (description.entriesOf seen declared).value =
      ((declared.map (·.name)).filter fun path => path ∉ seen).eraseDups.filterMap
        (description.entryIn declared) := by
  induction declared generalizing seen with
  | nil => rfl
  | cons member rest ih =>
    by_cases known : member.name ∈ seen
    · have skipped : (description.entriesOf seen (member :: rest)).value =
          (description.entriesOf seen rest).value := by
        rw [entriesOf, if_pos known]
        rfl
      rw [skipped, ih, List.map_cons, List.filter_cons_of_neg (by simpa using known)]
      refine List.filterMap_congr fun path listed => (entryIn_cons_of_ne ?_).symm
      rintro rfl
      simp [List.mem_eraseDups, known] at listed
    have others : ((rest.map (·.name)).filter fun path => path ∉ seen).filter
        (fun path => !path == member.name) =
        (rest.map (·.name)).filter fun path => path ∉ member.name :: seen := by
      rw [List.filter_filter]
      apply List.filter_congr
      intro path _
      rw [Bool.eq_iff_iff]
      simp
    have later : (description.entriesOf (member.name :: seen) rest).value =
        (((rest.map (·.name)).filter fun path => path ∉ member.name :: seen).eraseDups).filterMap
          (description.entryIn (member :: rest)) := by
      rw [ih]
      refine List.filterMap_congr fun path listed => (entryIn_cons_of_ne ?_).symm
      rintro rfl
      simp [List.mem_eraseDups] at listed
    rw [List.map_cons, List.filter_cons_of_pos (by simpa using known), List.eraseDups_cons, others,
      List.filterMap_cons, entryIn_cons_self, ← later, entriesOf, if_neg known]
    cases member.block? with
    | none => rfl
    | some body => rfl

theorem pathEntries_value (description : Description) :
    description.pathEntries.value =
      (description.pathMembers.map (·.name)).eraseDups.filterMap
        (description.entryIn description.pathMembers) := by
  unfold pathEntries
  rw [entriesOf_value]
  simp

theorem operations_of_entryIn {declared : List Member} {entry : PathEntry}
    (found : description.entryIn declared path = some entry) :
    entry.path = path ∧ ∃ body,
      ((declared.find? fun member => member.name = path).bind Member.block?) = some body ∧
        entry.operations = (methodsIn body).filterMap
          fun method => (description.operation? path method).value := by
  obtain ⟨body, first, rfl⟩ := Option.map_eq_some_iff.mp found
  refine ⟨rfl, body, first, ?_⟩
  rw [operationsOn_value]
  simp [methodsIn]

section Indexed

variable (indexed : description.Indexed)

include indexed

theorem entry_of_mem_pathEntries {entry : PathEntry}
    (member : entry ∈ description.pathEntries.value) :
    ∃ body, description.pathBody? entry.path = some body ∧
      entry.operations = (methodsIn body).filterMap
        fun method => (description.operation? entry.path method).value := by
  rw [pathEntries_value] at member
  obtain ⟨path, _, found⟩ := List.mem_filterMap.mp member
  obtain ⟨rfl, body, first, operations⟩ := operations_of_entryIn found
  exact ⟨body, (indexed entry.path).trans first, operations⟩

theorem paths_pathEntries :
    description.pathEntries.value.map (·.path) =
      (description.pathMembers.map (·.name)).eraseDups.filter
        fun path => (description.pathBody? path).isSome := by
  rw [pathEntries_value,
    map_filterMap_of_key fun path entry found => (operations_of_entryIn found).1]
  apply List.filter_congr
  intro path _
  rw [indexed, entryIn, Option.isSome_map]

theorem mem_paths_of_pathBody? {body : Text} (here : description.pathBody? path = some body) :
    path ∈ description.pathEntries.value.map (·.path) := by
  rw [paths_pathEntries indexed]
  refine List.mem_filter.mpr ⟨?_, by simp [here]⟩
  rw [indexed] at here
  obtain ⟨member, first, _⟩ := Option.bind_eq_some_iff.mp here
  have named : member.name = path := by simpa using List.find?_some first
  exact List.mem_eraseDups.mpr (List.mem_map.mpr ⟨member, List.mem_of_find?_eq_some first, named⟩)

theorem listed_iff_operation? :
    (∃ entry ∈ description.pathEntries.value, entry.path = path ∧ operation ∈ entry.operations ∧
      operation.method = method) ↔
      (description.operation? path method).value = some operation := by
  constructor
  · rintro ⟨entry, member, rfl, present, rfl⟩
    obtain ⟨body, _, operations⟩ := entry_of_mem_pathEntries indexed member
    rw [operations] at present
    obtain ⟨method, _, found⟩ := List.mem_filterMap.mp present
    rw [(operation?_keyed found).1]
    exact found
  · intro found
    obtain ⟨body, here, _⟩ := Option.bind_eq_some_iff.mp
      ((operation?_value description path method).symm.trans found)
    obtain ⟨entry, member, rfl⟩ := List.mem_map.mp (mem_paths_of_pathBody? indexed here)
    obtain ⟨body', same, operations⟩ := entry_of_mem_pathEntries indexed member
    cases same.symm.trans here
    refine ⟨entry, member, rfl, ?_, (operation?_keyed found).1⟩
    rw [operations]
    exact List.mem_filterMap.mpr ⟨method, mem_methodsIn_of_operation? here found, found⟩

theorem methods_of_mem_pathEntries {entry : PathEntry}
    (member : entry ∈ description.pathEntries.value) :
    ∃ body, description.pathBody? entry.path = some body ∧
      entry.operations.map (·.method) = (methodsIn body).filter
        fun method => (description.operation? entry.path method).value.isSome := by
  obtain ⟨body, here, operations⟩ := entry_of_mem_pathEntries indexed member
  refine ⟨body, here, ?_⟩
  rw [operations, map_filterMap_of_key fun method operation found => (operation?_keyed found).1]

end Indexed

/-- Extraction neither loses, repeats nor reorders anything: the list of all paths holds what
asking for single operations gives, and the first declaration of a path or method counts. -/
theorem pathEntries_agree (text : Text) :
    let description := (ofText text).value
    let entries := description.pathEntries.value
    (∀ path method operation,
      (∃ entry ∈ entries, entry.path = path ∧ operation ∈ entry.operations ∧
        operation.method = method) ↔
        (description.operation? path method).value = some operation) ∧
    (entries.map (·.path)).Nodup ∧
    entries.map (·.path) = (description.pathMembers.map (·.name)).eraseDups.filter
      (fun path => (description.pathBody? path).isSome) ∧
    (∀ path, description.pathBody? path =
      (description.pathMembers.find? fun member => member.name = path).bind Member.block?) ∧
    (∀ entry ∈ entries, (entry.operations.map (·.method)).Nodup ∧
      ∃ body, description.pathBody? entry.path = some body ∧
        entry.operations.map (·.method) = (methodsIn body).filter
          fun method => (description.operation? entry.path method).value.isSome) ∧
    (∀ path method, (description.operation? path method).value =
      (description.pathBody? path).bind fun body =>
        ((members body).find? fun member => Method.named? member.name = some method).bind
          fun member =>
            if member.isPlaceholder then none
            else (description.resolve path method member.value).value) := by
  intro description entries
  have indexed : description.Indexed := indexed_ofText text
  have order := paths_pathEntries indexed
  refine ⟨?_, ?_, order, indexed, ?_, operation?_value description⟩
  · intro path method operation
    exact listed_iff_operation? indexed
  · rw [order]
    exact (nodup_eraseDups _).filter _
  · intro entry member
    obtain ⟨body, here, methods⟩ := methods_of_mem_pathEntries indexed member
    refine ⟨?_, body, here, methods⟩
    rw [methods]
    exact (nodup_eraseDups _).filter _

end Description

end TypedClient
