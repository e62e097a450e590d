import TypedClient.Proofs.Schema.Reachability

/-!
Which references a walk over schemas accounts for. Main statement: it visits or reports its roots
and what the property types of visited object literals refer to, and nothing else. What any other
declaration refers to is neither gone to nor reported.
-/

namespace TypedClient.Walk

variable {description other : Description} {limit steps : Nat} {roots : List Text} {name : Text}
  {walk : Walk}

theorem declared_of_objectSchema? {schema : Schema}
    (object : description.objectSchema? name = some schema) :
    description.schemaType? name ≠ none := by
  intro absent
  simp [Description.objectSchema?, Description.schema?, Description.schemaBody?, absent] at object

/-- What a walk that has visited these names has reason to report: one of them that nothing
declares, or a reference of one of them that was cut off. -/
def Due (description : Description) (limit : Nat) (visited : List Text) (warning : Warning) :
    Prop :=
  (∃ name ∈ visited, description.schemaType? name = none ∧ warning = .schemaNotDeclared name) ∨
    ∃ name ∈ visited, ∃ ref, description.Leads name ref ∧
      warning = .depthExceeded ref (limit + 1) limit

theorem Due.mono {before after : List Text} {warning : Warning}
    (due : Due description limit before warning) (grown : before ⊆ after) :
    Due description limit after warning := by
  rcases due with ⟨name, seen, rest⟩ | ⟨name, seen, rest⟩
  · exact Or.inl ⟨name, grown seen, rest⟩
  · exact Or.inr ⟨name, grown seen, rest⟩

/-- The warnings of a walk have their reasons, and no name that nothing declares is passed over. -/
structure Warned (description : Description) (limit : Nat) (walk : Walk) : Prop where
  due : ∀ warning ∈ walk.warnings, Due description limit walk.visited warning
  undeclared : ∀ name ∈ walk.visited, description.schemaType? name = none →
    .schemaNotDeclared name ∈ walk.warnings

theorem Warned.start : Warned description limit start where
  due := by simp [Walk.start]
  undeclared := by simp [Walk.start]

theorem Warned.addRelevant (warned : Warned description limit walk) (schema : Schema) :
    Warned description limit (walk.addRelevant schema) where
  due := by simpa using warned.due
  undeclared := by simpa using warned.undeclared

theorem Warned.enter (warned : Warned description limit walk)
    (declared : description.schemaType? name ≠ none) :
    Warned description limit (walk.enter name) where
  due := by
    intro warning reported
    exact (warned.due warning reported).mono (List.subset_cons_self _ _)
  undeclared := by
    intro entered seen absent
    rcases List.mem_cons.mp seen with rfl | earlier
    · exact absurd absent declared
    · exact warned.undeclared entered earlier absent

theorem Warned.enterUndeclared (warned : Warned description limit walk)
    (absent : description.schemaType? name = none) :
    Warned description limit ((walk.enter name).warn (.schemaNotDeclared name)) where
  due := by
    intro warning reported
    rcases List.mem_append.mp reported with earlier | own
    · exact (warned.due warning earlier).mono (List.subset_cons_self _ _)
    · exact Or.inl ⟨name, List.mem_cons_self, absent, List.mem_singleton.mp own⟩
  undeclared := by
    intro entered seen missing
    rcases List.mem_cons.mp seen with rfl | earlier
    · exact List.mem_append_right _ List.mem_cons_self
    · exact List.mem_append_left _ (warned.undeclared entered earlier missing)

theorem Warned.cutOff {parent : Text} (warned : Warned description limit walk)
    (seen : parent ∈ walk.visited) (leads : description.Leads parent name) :
    Warned description limit (walk.warn (.depthExceeded name (limit + 1) limit)) where
  due := by
    intro warning reported
    rcases List.mem_append.mp reported with earlier | own
    · exact warned.due warning earlier
    · exact Or.inr ⟨parent, seen, name, leads, List.mem_singleton.mp own⟩
  undeclared := by
    intro entered present absent
    exact List.mem_append_left _ (warned.undeclared entered present absent)

/-- A name is gone to with no step left only where a visited schema leads to it. That schema stays
visited while its other references are followed, which the second part says. -/
theorem warned_visit (steps : Nat) : ∀ (name : Text) (walk : Walk),
    Warned description limit walk →
    (steps = 0 → ∃ parent ∈ walk.visited, description.Leads parent name) →
      Warned description limit (visit description limit steps name walk) ∧
        walk.visited ⊆ (visit description limit steps name walk).visited := by
  induction steps with
  | zero =>
    intro name walk warned referred
    by_cases fresh : name ∈ walk.visited
    · rw [visit_seen fresh]
      exact ⟨warned, List.Subset.refl _⟩
    · obtain ⟨parent, seen, leads⟩ := referred rfl
      rw [visit_cut fresh]
      exact ⟨warned.cutOff seen leads, List.Subset.refl _⟩
  | succ steps ih =>
    intro name walk warned _
    by_cases fresh : name ∈ walk.visited
    · rw [visit_seen fresh]
      exact ⟨warned, List.Subset.refl _⟩
    cases object : description.objectSchema? name with
    | none =>
      rw [visit_other fresh object]
      split
      · rename_i absent
        exact ⟨warned.enterUndeclared (Option.isNone_iff_eq_none.mp absent),
          List.subset_cons_self _ _⟩
      · rename_i declared
        exact ⟨warned.enter (by simpa using declared), List.subset_cons_self _ _⟩
    | some schema =>
      rw [visit_object fresh object]
      have entered := (warned.enter (declared_of_objectSchema? object)).addRelevant schema
      have known : name :: walk.visited ⊆ ((walk.enter name).addRelevant schema).visited := by
        rw [visited_addRelevant]
        exact List.Subset.refl _
      have followed : Warned description limit
            (follow description limit steps (refsOf schema)
              ((walk.enter name).addRelevant schema)) ∧
          name :: walk.visited ⊆ (follow description limit steps (refsOf schema)
            ((walk.enter name).addRelevant schema)).visited := by
        refine List.foldlRecOn (motive := fun later : Walk =>
          Warned description limit later ∧ name :: walk.visited ⊆ later.visited) _ _
          ⟨entered, known⟩ ?_
        rintro later ⟨warned', seen⟩ ref member
        have leads : description.Leads name ref := ⟨schema, object, mem_refsOf.mp member⟩
        obtain ⟨next, grown⟩ := ih ref later warned' fun _ => ⟨name, seen List.mem_cons_self, leads⟩
        exact ⟨next, List.Subset.trans seen grown⟩
      exact ⟨followed.1, List.Subset.trans (List.subset_cons_self _ _) followed.2⟩

theorem warned_fromRoots (description : Description) (limit : Nat) (roots : List Text) :
    Warned description limit (fromRoots description limit roots start) := by
  refine List.foldlRecOn _ _ Warned.start ?_
  intro walk warned root _
  exact (warned_visit (limit + 1) root walk warned (by simp)).1

section Congruence

variable (objects : ∀ name, other.objectSchema? name = description.objectSchema? name)
  (declared : ∀ name, other.schemaType? name = none ↔ description.schemaType? name = none)

include objects declared

/-- A walk looks at nothing but object literals and the names that are declared. -/
theorem visit_congr (steps : Nat) : ∀ (name : Text) (walk : Walk),
    visit other limit steps name walk = visit description limit steps name walk := by
  induction steps with
  | zero => exact fun _ _ => rfl
  | succ steps ih =>
    intro name walk
    by_cases fresh : name ∈ walk.visited
    · rw [visit_seen fresh, visit_seen fresh]
    cases object : description.objectSchema? name with
    | none =>
      rw [visit_other fresh object, visit_other fresh ((objects name).trans object)]
      simp only [Option.isNone_iff_eq_none, declared]
    | some schema =>
      rw [visit_object fresh object, visit_object fresh ((objects name).trans object)]
      unfold follow
      simp only [ih]

theorem fromRoots_congr :
    fromRoots other limit roots walk = fromRoots description limit roots walk := by
  unfold fromRoots
  simp only [visit_congr objects declared]

end Congruence

/-- A fresh walk accounts for its roots and for the references in the property types of object
literals, by a visit or a warning, and for nothing else. It is the same walk whatever the other
declarations refer to. -/
theorem accounted_iff (description : Description) (limit : Nat) (roots : List Text) :
    let walk := fromRoots description limit roots start
    (∀ ref, ref ∈ walk.visited ∨ .depthExceeded ref (limit + 1) limit ∈ walk.warnings ↔
      ref ∈ roots ∨ ∃ name ∈ walk.visited, description.Leads name ref) ∧
    (∀ warning ∈ walk.warnings, Due description limit walk.visited warning) ∧
    (∀ name ∈ walk.visited, description.schemaType? name = none →
      .schemaNotDeclared name ∈ walk.warnings) ∧
    ∀ other : Description,
      (∀ name, other.objectSchema? name = description.objectSchema? name) →
      (∀ name, other.schemaType? name = none ↔ description.schemaType? name = none) →
        fromRoots other limit roots start = walk := by
  intro walk
  obtain ⟨settled, entered⟩ := settled_fromRoots description limit roots
  obtain ⟨due, undeclared⟩ := warned_fromRoots description limit roots
  refine ⟨fun ref => ⟨?_, ?_⟩, due, undeclared, fun other objects declared =>
    fromRoots_congr objects declared⟩
  · rintro (visited | reported)
    · obtain ⟨behind, ending⟩ := settled ref visited
      cases trail : ending.trail with
      | root present => exact Or.inl present
      | step _ leads =>
        exact Or.inr ⟨_, ending.visited (List.mem_cons_of_mem _ List.mem_cons_self), leads⟩
    · rcases due _ reported with ⟨_, _, _, same⟩ | ⟨name, visited, _, leads, same⟩
      · simp [Warning.schemaNotDeclared] at same
      · cases same
        exact Or.inr ⟨name, visited, leads⟩
  · rintro (present | ⟨name, visited, leads⟩)
    · exact Or.inl (entered ref present)
    · obtain ⟨_, ending⟩ := settled name visited
      rcases ending.followed ref leads with seen | ⟨_, reported⟩
      · exact Or.inl seen
      · exact Or.inr reported

/-- A schema that others refer to in every way but by a property. -/
def staffText : Text :=
  "interface components \x7b schemas: \x7b Member: components['schemas']['User'];\n" ++
    "Staff: components['schemas']['User'] & \x7b role: string \x7d;\n" ++
    "Guest: components['schemas']['User'] | null; Group: components['schemas']['User'][];\n" ++
    "Directory: \x7b [id: string]: components['schemas']['User'] \x7d;\n" ++
    "User: \x7b name: string \x7d \x7d \x7d"

def staff : Description := (Description.ofText staffText).value

def staffRoots : List Text := ["Member", "Staff", "Guest", "Group", "Directory"]

theorem user_dropped :
    fromRoots staff 5 staffRoots start = ⟨staffRoots.reverse, [], []⟩ ∧
    "User".toList ∉ staffRoots ∧
    (∀ name ∈ staffRoots, (staff.schemaType? name).map
      (fun type => schemaRefs (stripComments type)) = some ["User".toList]) ∧
    (staff.objectSchema? "User").isSome = true := by
  decide +kernel

end TypedClient.Walk
