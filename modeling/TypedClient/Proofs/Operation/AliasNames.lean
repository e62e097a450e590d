import TypedClient.Description.Model
import TypedClient.Proofs.Description.Extraction
import TypedClient.Proofs.Name.Characters
import TypedClient.Proofs.Operation.Parameters

/-!
The names of the aliases of an operation. Main statement: they can be written down exactly if the
operation's id can. An id made from method and path always can, and one that is declared is taken
as it stands.
-/

namespace TypedClient

open Text Name

namespace Text

theorem lowerAfter_of_ascii {text : Text} (ascii : text.all isAscii = true) (passed : Text) :
    lowerAfter passed text = text.map Char.toLower := by
  induction text generalizing passed with
  | nil => rfl
  | cons c rest ih =>
    rw [List.all_cons, Bool.and_eq_true] at ascii
    have other : (c == 'Σ') = false := by
      apply beq_false_of_ne
      rintro rfl
      exact absurd ascii.1 (by decide)
    rw [lowerAfter, other, if_neg Bool.false_ne_true, lowerChar, if_pos ascii.1, ih ascii.2]
    rfl

theorem lower_of_ascii {text : Text} (ascii : text.all isAscii = true) :
    lower text = text.map Char.toLower :=
  lowerAfter_of_ascii ascii []

end Text

namespace Name

/-- A plain name is plain in lower case too. -/
theorem isPlain_lower {name : Text} (plain : isPlain name = true) :
    isPlain (lower name) = true := by
  rw [lower_of_ascii (all_of_isPlain (by decide) plain)]
  cases name with
  | nil => contradiction
  | cons c rest =>
    rw [isPlain, Bool.and_eq_true] at plain
    have ascii : isAscii c = true :=
      continuesIdentifier_imp (by decide) (continuesIdentifier_of_starts plain.1)
    have first : startsIdentifier c.toLower = true :=
      ascii_imp (q := fun c => startsIdentifier c.toLower) (by decide)
        (of_decide_eq_true ascii) plain.1
    have others : (rest.map Char.toLower).all continuesIdentifier = true := by
      rw [List.all_map]
      exact all_imp (fun _ => continuesIdentifier_imp (by decide)) plain.2
    rw [List.map_cons, isPlain, first, others]
    rfl

end Name

namespace Path

/-- An id made from a known method and a path is plain. -/
theorem isPlain_operationId {method : Method} (known : method ∈ Method.known) (path : Text) :
    isPlain (operationId method.token path) = true := by
  have plain : ∀ method ∈ Method.known, method.token ≠ [] ∧ isPlain method.token = true := by
    decide
  obtain ⟨filled, token⟩ := plain method known
  unfold operationId
  split
  · exact isPlain_lower token
  · have words : (join "_" ((segments path).map fun segment =>
        if segment.head? = some '{' ∧ segment.getLast? = some '}' then "by_id".toList
        else sanitize segment)).all isBare = true := by
      refine all_join (by decide) fun word member => ?_
      obtain ⟨segment, _, rfl⟩ := List.mem_map.mp member
      split
      · decide
      · exact all_sanitize segment
    apply isPlain_lower
    rw [List.append_assoc, isPlain_append filled]
    · exact token
    · rw [List.all_append, all_imp continuesIdentifier_of_isBare words]
      decide

end Path

theorem ne_nil_of_readIndex? {text name after : Text}
    (read : readIndex? text = some (name, after)) : name ≠ [] := by
  unfold readIndex? at read
  split at read
  · split at read
    · split at read
      · rename_i named
        split at read
        · cases read
          exact named.2
        · contradiction
      · contradiction
    · contradiction
  · contradiction

theorem ne_nil_of_operationRef? {value id : Text} (refers : operationRef? value = some id) :
    id ≠ [] := by
  unfold operationRef? at refers
  split at refers
  · split at refers
    · rename_i read
      cases refers
      exact ne_nil_of_readIndex? read
    · contradiction
  · contradiction

namespace AliasKind

theorem isPlain_aliasName {id : Text} (filled : id ≠ []) (kind : AliasKind) :
    isPlain (kind.aliasName id) = isPlain id := by
  have ending : ("_".toList ++ kind.ending).all continuesIdentifier = true := by
    cases kind <;> decide
  rw [aliasName, List.append_assoc]
  exact isPlain_append filled ending

end AliasKind

namespace OperationTypes

variable {types : OperationTypes} {entry : Alias}

theorem name_of_mem_aliases (member : entry ∈ types.aliases) :
    entry.name = types.nameOf entry.kind := by
  simp only [aliases, List.mem_append, Option.mem_toList, Option.map_eq_some_iff,
    List.mem_singleton] at member
  rcases member with ((⟨target, _, rfl⟩ | ⟨target, _, rfl⟩) | rfl) | ⟨target, _, rfl⟩ <;> rfl

theorem isPlain_of_mem_aliases (filled : types.id ≠ []) (member : entry ∈ types.aliases) :
    isPlain entry.name = isPlain types.id := by
  rw [name_of_mem_aliases member]
  exact AliasKind.isPlain_aliasName filled entry.kind

end OperationTypes

namespace Description

variable {description : Description} {path : Text} {method : Method} {operation : Operation}

/-- The id of an operation is made or declared. -/
theorem id_of_resolve {value : Text}
    (found : (description.resolve path method value).value = some operation) :
    (operation.synthesized = true ∧ operation.id = Path.operationId method.token path) ∨
      (operation.synthesized = false ∧ operation.id ≠ [] ∧
        operation.id ∈ description.operationMembers.map (·.name)) := by
  unfold resolve at found
  split at found
  · rename_i id refers
    dsimp only at found
    split at found
    · rename_i body declared
      cases found
      refine .inr ⟨rfl, ne_nil_of_operationRef? refers, ?_⟩
      obtain ⟨member, first, _⟩ := Option.bind_eq_some_iff.mp declared
      have named : member.name = id := by simpa using List.find?_some first
      exact List.mem_map.mpr ⟨member, List.mem_of_find?_eq_some first, named⟩
    · contradiction
  · split at found
    · cases found
      exact .inl ⟨rfl, rfl⟩
    · contradiction

theorem id_of_operation? (found : (description.operation? path method).value = some operation) :
    operation.id ≠ [] ∧ (operation.synthesized = true → isPlain operation.id = true) ∧
      (operation.synthesized = false →
        operation.id ∈ description.operationMembers.map (·.name)) := by
  rw [operation?_value] at found
  obtain ⟨body, _, found⟩ := Option.bind_eq_some_iff.mp found
  obtain ⟨member, first, found⟩ := Option.bind_eq_some_iff.mp found
  split at found
  · contradiction
  rcases id_of_resolve found with ⟨made, id⟩ | ⟨taken, filled, declared⟩
  · have named : Method.named? member.name = some method := by simpa using List.find?_some first
    have plain : isPlain operation.id = true := by
      rw [id]
      exact Path.isPlain_operationId (List.mem_of_find?_eq_some named) path
    exact ⟨ne_nil_of_isPlain plain, fun _ => plain, by simp [made]⟩
  · exact ⟨filled, by simp [taken], fun _ => declared⟩

theorem eq_of_model {entries : List PathEntry}
    (extracted : description.model.value = .ok entries) :
    entries = description.pathEntries.value := by
  simp only [model, Reported.value_bind, Reported.value_pure] at extracted
  split at extracted
  · contradiction
  · exact (Except.ok.inj extracted).symm

/-- The aliases that are exported for the operations of a description. -/
theorem isPlain_alias_iff (text : Text) :
    let description := (ofText text).value
    ∀ entries, description.model.value = .ok entries → ∀ operation ∈ operationsIn entries,
      (operation.synthesized = true → isPlain operation.id = true) ∧
      (operation.synthesized = false →
        operation.id ∈ description.operationMembers.map (·.name)) ∧
      ∀ entry ∈ (description.typesOf operation).value.aliases,
        isPlain entry.name = isPlain operation.id := by
  intro description entries extracted operation listed
  rw [eq_of_model extracted] at listed
  obtain ⟨entry, inside, present⟩ := List.mem_flatMap.mp listed
  have found := (listed_iff_operation? (indexed_ofText text)).mp
    ⟨entry, inside, rfl, present, rfl⟩
  obtain ⟨filled, made, declared⟩ := id_of_operation? found
  refine ⟨made, declared, fun entry member => ?_⟩
  have same : (description.typesOf operation).value.id = operation.id :=
    description.id_typesOf operation
  rw [← same] at filled ⊢
  exact OperationTypes.isPlain_of_mem_aliases filled member

/-- A declared id that no name can be made of. -/
def hyphenText : Text :=
  "interface paths \x7b '/user': \x7b get: operations['get-user'] \x7d \x7d\n" ++
    "interface operations \x7b 'get-user': \x7b responses: \x7b \x7d \x7d \x7d"

theorem hyphen_alias_not_plain :
    let description := (ofText hyphenText).value
    description.model.value.toOption.map (fun entries => (operationsIn entries).flatMap
      fun operation => (description.typesOf operation).value.aliases.map (·.name)) =
        some (["get-user_Response"] : List Text) ∧
    isPlain "get-user_Response" = false := by
  decide +kernel

end Description

end TypedClient
