import TypedClient.Operation.Reading

/-!
The parameters that are read from the body of an operation and its path. Main statement: they are
those declared for the path, one for each placeholder that is left out there, and those declared for
the query and the headers.
-/

namespace TypedClient

open Text

theorem Reported.warn_bind {α β : Type} (warning : Warning) (a : α) (next : α → Reported β) :
    (Reported.warn warning a >>= next) = ⟨(next a).value, warning :: (next a).warnings⟩ :=
  rfl

/-- Where the parameters of a location stand among the others. -/
def Location.rank : Location → Nat
  | .path => 0
  | .query => 1
  | .header => 2

/-- The inside of a literal that stands for a type. -/
def Member.typedBlock? (member : Member) : Option Text :=
  if member.isPlaceholder then none else member.block?

/-- The placeholders that are left out by the declared names, each where it is first met. -/
def Path.undeclared (declared placeholders : List Text) : List Text :=
  (placeholders.filter fun placeholder => placeholder ∉ declared).eraseDups

namespace Parameter

/-- The groups of parameters, if they are a literal. -/
def groupsIn? (body : Text) : Option Text :=
  (findMember? body "parameters").bind Member.typedBlock?

/-- The first group of parameters for a location, if it is a literal. -/
def groupFor? (groups : Text) (location : Location) : Option Text :=
  (findMember? groups location.name).bind Member.typedBlock?

/-- The parameters of a group that carry a type. -/
def inGroup (location : Location) (group : Text) : List Parameter :=
  ((members group).filter fun member => !member.isPlaceholder).map fun member =>
    ⟨member.name, member.value, member.optional, location⟩

/-- The parameters that an operation declares for a location. -/
def declaredAt (body : Text) (location : Location) : List Parameter :=
  let group := (groupsIn? body).bind fun groups => groupFor? groups location
  (group.map (inGroup location)).getD []

/-- The placeholders of a path that the operation does not declare. -/
def missingFrom (path body : Text) : List Text :=
  Path.undeclared ((declaredAt body .path).map (·.name)) (Path.placeholders path)

end Parameter

namespace Path

variable {declared placeholders : List Text} {placeholder : Text}

theorem mem_undeclared :
    placeholder ∈ undeclared declared placeholders ↔
      placeholder ∈ placeholders ∧ placeholder ∉ declared := by
  simp [undeclared]

theorem undeclared_cons_of_mem (known : placeholder ∈ declared) :
    undeclared declared (placeholder :: placeholders) = undeclared declared placeholders := by
  simp [undeclared, known]

/-- A placeholder that was added counts as declared from there on. -/
theorem undeclared_cons_of_not_mem (new : placeholder ∉ declared) :
    undeclared declared (placeholder :: placeholders) =
      placeholder :: undeclared (declared ++ [placeholder]) placeholders := by
  have kept (other : Text) : (!other == placeholder && decide (other ∉ declared)) =
      decide (other ∉ declared ++ [placeholder]) := by
    rw [Bool.eq_iff_iff]
    simp [and_comm]
  rw [undeclared, List.filter_cons_of_pos (by simpa using new), List.eraseDups_cons,
    List.filter_filter]
  simp only [kept]
  rfl

/-- A placeholder that is met twice is added once. -/
example : undeclared ["rank".toList] ["id".toList, "rank".toList, "id".toList] = ["id".toList] := by
  decide

theorem nodup_undeclared : (undeclared declared placeholders).Nodup := by
  induction placeholders generalizing declared with
  | nil => simp [undeclared]
  | cons placeholder rest ih =>
    by_cases known : placeholder ∈ declared
    · rw [undeclared_cons_of_mem known]
      exact ih
    · rw [undeclared_cons_of_not_mem known, List.nodup_cons, mem_undeclared]
      exact ⟨by simp, ih⟩

end Path

namespace Parameter

section Placeholders

variable {operation : Text} {front rest : List Parameter} {placeholder : Text}

theorem insertInPath_append (parameter : Parameter) (inFront : ∀ first ∈ front, first.location = .path)
    (behind : ∀ later ∈ rest, later.location ≠ .path) :
    insertInPath parameter (front ++ rest) = front ++ parameter :: rest := by
  induction front with
  | nil =>
    cases rest with
    | nil => rfl
    | cons later rest => exact if_neg (behind later (by simp))
  | cons first front ih =>
    rw [List.cons_append, insertInPath, if_pos (inFront first (by simp)),
      ih fun other member => inFront other (by simp [member])]
    rfl

theorem any_named_iff (inFront : ∀ first ∈ front, first.location = .path)
    (behind : ∀ later ∈ rest, later.location ≠ .path) :
    ((front ++ rest).any fun parameter =>
        parameter.location = .path && parameter.name = placeholder) = true ↔
      placeholder ∈ front.map (·.name) := by
  rw [List.any_eq_true, List.mem_map]
  constructor
  · rintro ⟨parameter, member, found⟩
    obtain ⟨located, named⟩ : parameter.location = .path ∧ parameter.name = placeholder := by
      simpa using found
    rcases List.mem_append.mp member with member | member
    · exact ⟨parameter, member, named⟩
    · exact absurd located (behind parameter member)
  · rintro ⟨parameter, member, named⟩
    exact ⟨parameter, List.mem_append_left rest member, by simp [inFront parameter member, named]⟩

theorem addPlaceholder_of_mem (inFront : ∀ first ∈ front, first.location = .path)
    (behind : ∀ later ∈ rest, later.location ≠ .path)
    (known : placeholder ∈ front.map (·.name)) :
    addPlaceholder operation (front ++ rest) placeholder = pure (front ++ rest) :=
  if_pos ((any_named_iff inFront behind).mpr known)

theorem addPlaceholder_of_not_mem (inFront : ∀ first ∈ front, first.location = .path)
    (behind : ∀ later ∈ rest, later.location ≠ .path)
    (new : placeholder ∉ front.map (·.name)) :
    addPlaceholder operation (front ++ rest) placeholder =
      .warn (.placeholderNotDeclared operation placeholder)
        (front ++ [ofPlaceholder placeholder] ++ rest) := by
  rw [addPlaceholder, if_neg fun found => new ((any_named_iff inFront behind).mp found),
    insertInPath_append _ inFront behind, List.append_assoc, List.singleton_append]

/-- Path parameters stay in front, and what is added comes last among them. -/
theorem foldlM_addPlaceholder (placeholders : List Text)
    (inFront : ∀ first ∈ front, first.location = .path)
    (behind : ∀ later ∈ rest, later.location ≠ .path) :
    placeholders.foldlM (addPlaceholder operation) (front ++ rest) =
      ⟨front ++ (Path.undeclared (front.map (·.name)) placeholders).map ofPlaceholder ++ rest,
        (Path.undeclared (front.map (·.name)) placeholders).map
          (.placeholderNotDeclared operation)⟩ := by
  induction placeholders generalizing front with
  | nil => simp [Path.undeclared, pure]
  | cons placeholder placeholders ih =>
    rw [List.foldlM_cons]
    by_cases known : placeholder ∈ front.map (·.name)
    · rw [addPlaceholder_of_mem inFront behind known, Path.undeclared_cons_of_mem known, ← ih inFront]
      rfl
    · have inGrown : ∀ first ∈ front ++ [ofPlaceholder placeholder], first.location = .path := by
        intro first member
        rcases List.mem_append.mp member with member | member
        · exact inFront first member
        · rw [List.mem_singleton.mp member]
          rfl
      have grown := ih inGrown
      rw [List.map_append, List.map_singleton] at grown
      rw [addPlaceholder_of_not_mem inFront behind known, Path.undeclared_cons_of_not_mem known,
        Reported.warn_bind, grown]
      simp [ofPlaceholder]

end Placeholders

section Declared

variable {body : Text} {location : Location}

theorem location_of_mem_declaredAt {parameter : Parameter}
    (declared : parameter ∈ declaredAt body location) : parameter.location = location := by
  unfold declaredAt at declared
  cases found : (groupsIn? body).bind fun groups => groupFor? groups location with
  | none => simp [found] at declared
  | some group =>
    rw [found] at declared
    obtain ⟨member, _, rfl⟩ := List.mem_map.mp declared
    rfl

theorem findMember?_nil (name : Text) : findMember? [] name = none := by
  have none : members [] = [] := by decide +kernel
  rw [findMember?, none]
  rfl

theorem value_groupsOf (operation body : Text) :
    (groupsOf operation body).value = (groupsIn? body).getD [] := by
  unfold groupsOf groupsIn?
  cases findMember? body "parameters" with
  | none => rfl
  | some parameters =>
    simp only [Option.bind_some, Member.typedBlock?]
    split
    · rfl
    · cases parameters.block? with
      | none => rfl
      | some groups => rfl

theorem value_ofGroup (groups operation : Text) (location : Location) :
    (ofGroup groups operation location).value =
      ((groupFor? groups location).map (inGroup location)).getD [] := by
  unfold ofGroup groupFor?
  cases findMember? groups location.name with
  | none => rfl
  | some group =>
    simp only [Option.bind_some, Member.typedBlock?]
    split
    · rfl
    · cases group.block? with
      | none => rfl
      | some inside => rfl

/-- What is read for a location is what its group declares, or nothing without a group. -/
theorem value_ofGroup_groupsOf (operation body : Text) (location : Location) :
    (ofGroup (groupsOf operation body).value operation location).value =
      declaredAt body location := by
  rw [value_ofGroup, value_groupsOf, declaredAt]
  cases groupsIn? body with
  | none => simp [groupFor?, findMember?_nil]
  | some groups => rfl

theorem value_declaredBy (operation body : Text) :
    (declaredBy operation body).value =
      declaredAt body .path ++ declaredAt body .query ++ declaredAt body .header := by
  rw [declaredBy]
  simp only [Reported.value_bind, Reported.value_pure, value_ofGroup_groupsOf]

/-- Every placeholder that is left out is added behind the declared path parameters. -/
theorem foldlM_declaredBy (operation path body : Text) :
    (Path.placeholders path).foldlM (addPlaceholder operation) (declaredBy operation body).value =
      ⟨declaredAt body .path ++ (missingFrom path body).map ofPlaceholder ++
          (declaredAt body .query ++ declaredAt body .header),
        (missingFrom path body).map (.placeholderNotDeclared operation)⟩ := by
  have inFront : ∀ first ∈ declaredAt body .path, first.location = .path :=
    fun _ member => location_of_mem_declaredAt member
  have behind : ∀ later ∈ declaredAt body .query ++ declaredAt body .header,
      later.location ≠ .path := by
    intro later member
    rcases List.mem_append.mp member with member | member <;>
      simp [location_of_mem_declaredAt member]
  rw [value_declaredBy, List.append_assoc, foldlM_addPlaceholder _ inFront behind]
  rfl

theorem value_ofOperation (operation path body : Text) :
    (ofOperation operation path body).value =
      declaredAt body .path ++ (missingFrom path body).map ofPlaceholder ++
        declaredAt body .query ++ declaredAt body .header := by
  rw [ofOperation, Reported.value_bind, foldlM_declaredBy]
  simp only [List.append_assoc]

theorem warnings_ofOperation (operation path body : Text) :
    (ofOperation operation path body).warnings =
      (declaredBy operation body).warnings ++
        (missingFrom path body).map (.placeholderNotDeclared operation) := by
  rw [ofOperation, Reported.warnings_bind, foldlM_declaredBy]

/-- Every placeholder of the path is a path parameter, declared or added. -/
theorem of_mem_placeholders {path placeholder : Text}
    (inPath : placeholder ∈ Path.placeholders path) (operation body : Text) :
    ∃ parameter ∈ (ofOperation operation path body).value,
      parameter.name = placeholder ∧ parameter.location = .path := by
  rw [value_ofOperation]
  by_cases declared : placeholder ∈ (declaredAt body .path).map (·.name)
  · obtain ⟨parameter, listed, named⟩ := List.mem_map.mp declared
    exact ⟨parameter, by simp [listed], named, location_of_mem_declaredAt listed⟩
  · have missing : placeholder ∈ missingFrom path body := Path.mem_undeclared.mpr ⟨inPath, declared⟩
    have added := List.mem_map_of_mem (f := ofPlaceholder) missing
    exact ⟨ofPlaceholder placeholder, by simp [added], rfl, rfl⟩

/-- The locations do not decrease along the parameters. -/
def Ascending (parameters : List Parameter) : Prop :=
  parameters.Pairwise fun first later => first.location.rank ≤ later.location.rank

/-- Parameters of one location may stand behind those of no later one. -/
theorem Ascending.append {parameters others : List Parameter} (ascending : Ascending parameters)
    (located : ∀ other ∈ others, other.location = location)
    (earlier : ∀ parameter ∈ parameters, parameter.location.rank ≤ location.rank) :
    Ascending (parameters ++ others) := by
  refine List.pairwise_append.mpr ⟨ascending, List.pairwise_of_forall_mem_list ?_, ?_⟩
  · intro first member later behind
    exact Nat.le_of_eq (by rw [located first member, located later behind])
  · intro parameter member other behind
    rw [located other behind]
    exact earlier parameter member

theorem ascending_ofOperation (operation path body : Text) :
    Ascending (ofOperation operation path body).value := by
  have declared (location : Location) : ∀ parameter ∈ declaredAt body location,
      parameter.location = location := fun _ member => location_of_mem_declaredAt member
  have added : ∀ parameter ∈ (missingFrom path body).map ofPlaceholder,
      parameter.location = .path := by
    intro parameter member
    obtain ⟨placeholder, _, rfl⟩ := List.mem_map.mp member
    rfl
  have inPath : ∀ parameter ∈ declaredAt body .path ++ (missingFrom path body).map ofPlaceholder,
      parameter.location = .path := by
    intro parameter member
    exact (List.mem_append.mp member).elim (declared .path parameter) (added parameter)
  rw [value_ofOperation]
  have none : Ascending [] := List.Pairwise.nil
  refine ((none.append inPath (by simp)).append (declared .query) ?_).append (declared .header) ?_
  · intro parameter member
    simp [inPath parameter member, Location.rank]
  · intro parameter member
    rcases List.mem_append.mp member with member | member
    · simp [inPath parameter member, Location.rank]
    · simp [declared .query parameter member, Location.rank]

end Declared

section Warnings

variable {operation body placeholder : Text} {warning : Warning}

theorem warning_groupsOf (raised : warning ∈ (groupsOf operation body).warnings) :
    ∃ value, warning = .parametersNotObject operation value := by
  unfold groupsOf at raised
  split at raised
  · contradiction
  · rename_i parameters _
    split at raised
    · contradiction
    · split at raised
      · exact ⟨parameters.value, List.mem_singleton.mp raised⟩
      · contradiction

theorem warning_ofGroup {groups : Text} {location : Location}
    (raised : warning ∈ (ofGroup groups operation location).warnings) :
    ∃ value, warning = .groupNotObject operation location.name value := by
  unfold ofGroup at raised
  split at raised
  · contradiction
  · rename_i group _
    split at raised
    · contradiction
    · split at raised
      · exact ⟨group.value, List.mem_singleton.mp raised⟩
      · contradiction

/-- A group that is no literal is warned about in other words. -/
theorem placeholderNotDeclared_ne_groupNotObject (location : Location) (value : Text) :
    Warning.placeholderNotDeclared operation placeholder ≠
      .groupNotObject operation location.name value := by
  intro same
  have texts := (Warning.unresolvableType.inj same).2
  cases location <;> cases texts

theorem placeholderNotDeclared_ne_parametersNotObject (value : Text) :
    Warning.placeholderNotDeclared operation placeholder ≠ .parametersNotObject operation value := by
  simp [Warning.placeholderNotDeclared, Warning.parametersNotObject]

theorem not_mem_warnings_declaredBy :
    Warning.placeholderNotDeclared operation placeholder ∉ (declaredBy operation body).warnings := by
  intro raised
  have elsewhere (location : Location) : Warning.placeholderNotDeclared operation placeholder ∉
      (ofGroup (groupsOf operation body).value operation location).warnings := by
    intro raised
    obtain ⟨value, same⟩ := warning_ofGroup raised
    exact placeholderNotDeclared_ne_groupNotObject location value same
  rw [declaredBy] at raised
  simp only [Reported.warnings_bind, Reported.warnings_pure, List.append_nil, List.mem_append,
    elsewhere, or_false] at raised
  obtain ⟨value, same⟩ := warning_groupsOf raised
  exact placeholderNotDeclared_ne_parametersNotObject value same

theorem placeholderNotDeclared_inj {placeholder other : Text} :
    Warning.placeholderNotDeclared operation placeholder = .placeholderNotDeclared operation other ↔
      placeholder = other := by
  simp [Warning.placeholderNotDeclared]

theorem count_warnings_ofOperation (operation path body placeholder : Text) :
    (ofOperation operation path body).warnings.count
        (.placeholderNotDeclared operation placeholder) =
      if placeholder ∈ missingFrom path body then 1 else 0 := by
  have distinct : ((missingFrom path body).map (Warning.placeholderNotDeclared operation)).Nodup :=
    List.pairwise_map.mpr (Path.nodup_undeclared.imp fun apart same =>
      apart (placeholderNotDeclared_inj.mp same))
  rw [warnings_ofOperation, List.count_append, List.count_eq_zero.mpr not_mem_warnings_declaredBy,
    Nat.zero_add, distinct.count]
  simp only [List.mem_map, placeholderNotDeclared_inj, exists_eq_right]

end Warnings

end Parameter

section Reading

variable {id body placeholder : Text}

theorem RequestBody.not_mem_warnings_ofOperation :
    Warning.placeholderNotDeclared id placeholder ∉ (ofOperation id body).warnings := by
  have other : Warning.placeholderNotDeclared id placeholder ≠ .noRequestContent id := by
    simp [Warning.placeholderNotDeclared, Warning.noRequestContent]
  unfold ofOperation
  split
  · exact List.not_mem_nil
  · split
    · exact List.not_mem_nil
    · split
      · exact List.not_mem_nil
      · split
        · exact fun raised => other (List.mem_singleton.mp raised)
        · exact List.not_mem_nil

theorem not_mem_warnings_responsesOf :
    Warning.placeholderNotDeclared id placeholder ∉ (responsesOf id body).warnings := by
  have other : Warning.placeholderNotDeclared id placeholder ≠ .noResponses id := by
    simp [Warning.placeholderNotDeclared, Warning.noResponses]
  unfold responsesOf
  split
  · exact fun raised => other (List.mem_singleton.mp raised)
  · exact List.not_mem_nil

/-- The parameters of an operation are those declared for the path, one for each placeholder that is
left out there, with a warning, and those declared for the query and for the headers. -/
theorem Operation.parameters_ofBody (id : Text) (method : Method) (path body : Text)
    (synthesized : Bool) :
    let read := Operation.ofBody id method path body synthesized
    let missing := Parameter.missingFrom path body
    read.value.parameters =
        Parameter.declaredAt body .path ++ missing.map Parameter.ofPlaceholder ++
          Parameter.declaredAt body .query ++ Parameter.declaredAt body .header ∧
      missing.Nodup ∧
      (∀ placeholder, read.warnings.count (.placeholderNotDeclared id placeholder) =
        if placeholder ∈ missing then 1 else 0) ∧
      Parameter.Ascending read.value.parameters ∧
      ∀ placeholder ∈ Path.placeholders path, ∃ parameter ∈ read.value.parameters,
        parameter.name = placeholder ∧ parameter.location = .path := by
  intro read missing
  have parameters : read.value.parameters = (Parameter.ofOperation id path body).value := rfl
  have warnings : read.warnings = (Parameter.ofOperation id path body).warnings ++
      ((RequestBody.ofOperation id body).warnings ++ (responsesOf id body).warnings) := by
    simp [read, Operation.ofBody]
  rw [parameters]
  refine ⟨Parameter.value_ofOperation id path body, Path.nodup_undeclared, fun placeholder => ?_,
    Parameter.ascending_ofOperation id path body,
    fun placeholder inPath => Parameter.of_mem_placeholders inPath id body⟩
  rw [warnings, List.count_append, List.count_append,
    List.count_eq_zero.mpr RequestBody.not_mem_warnings_ofOperation,
    List.count_eq_zero.mpr not_mem_warnings_responsesOf]
  exact Parameter.count_warnings_ofOperation id path body placeholder

end Reading

end TypedClient
