import Mathlib.Logic.Relation
import TypedClient.Schema.Walk

/-!
What a walk over schemas reaches. A schema leads to the schemas that the types of its properties
refer to, and a trail follows such references from a root on. Main statement: every schema a walk
has been to stands at the end of a trail within the limit, and all it leads to was visited as well
unless that trail was as long as the limit allows.
-/

namespace TypedClient

/-- The schema of a name that is declared as an object literal. -/
def Description.objectSchema? (description : Description) (name : Text) : Option Schema :=
  match description.schema? name with
  | some (.ok schema) => some schema
  | _ => none

/-- The type of one of the properties of `name` refers to `ref`. -/
def Description.Leads (description : Description) (name ref : Text) : Prop :=
  ∃ schema, description.objectSchema? name = some schema ∧
    ∃ property ∈ schema.properties, ref ∈ schemaRefs property.type

instance (description : Description) (name ref : Text) : Decidable (description.Leads name ref) :=
  match found : description.objectSchema? name with
  | some schema =>
    decidable_of_iff (∃ property ∈ schema.properties, ref ∈ schemaRefs property.type)
      (by simp [Description.Leads, found])
  | none => isFalse (by simp [Description.Leads, found])

/-- A chain of references from a root on, the schema reached last in front. -/
inductive Trail (description : Description) (roots : List Text) : List Text → Prop
  | root {name : Text} (present : name ∈ roots) : Trail description roots [name]
  | step {name ref : Text} {behind : List Text} (trail : Trail description roots (name :: behind))
      (leads : description.Leads name ref) : Trail description roots (ref :: name :: behind)

theorem Trail.of_suffix {description : Description} {roots all behind : List Text} {name : Text}
    (trail : Trail description roots all) (ending : name :: behind <:+ all) :
    Trail description roots (name :: behind) := by
  induction trail with
  | root present =>
    rcases List.suffix_cons_iff.mp ending with same | shorter
    · exact same ▸ .root present
    · simp at shorter
  | step trail leads ih =>
    rcases List.suffix_cons_iff.mp ending with same | shorter
    · exact same ▸ .step trail leads
    · exact ih shorter

/-- What a trail ends at can be reached. -/
theorem Trail.reached {description : Description} {roots behind : List Text} {name : Text}
    (trail : Trail description roots (name :: behind)) :
    ∃ root ∈ roots, Relation.ReflTransGen description.Leads root name := by
  generalize same : name :: behind = all at trail
  induction trail generalizing name behind with
  | root present =>
    cases same
    exact ⟨_, present, .refl⟩
  | step trail leads ih =>
    cases same
    obtain ⟨root, present, reached⟩ := ih rfl
    exact ⟨root, present, reached.tail leads⟩

namespace Walk

variable {description : Description} {limit : Nat} {roots : List Text}

/-- A later state of a walk: nothing that was seen or reported is forgotten. -/
structure Grown (before after : Walk) : Prop where
  visited : before.visited ⊆ after.visited
  warnings : before.warnings ⊆ after.warnings

/-- A schema that a walk came to along `behind`, with all that it leads to: a reference is cut off
only where the trail is as long as the limit. -/
structure Settled (description : Description) (limit : Nat) (roots : List Text) (walk : Walk)
    (name : Text) (behind : List Text) : Prop where
  trail : Trail description roots (name :: behind)
  nodup : (name :: behind).Nodup
  visited : name :: behind ⊆ walk.visited
  within : behind.length ≤ limit
  followed : ∀ ref, description.Leads name ref → ref ∈ walk.visited ∨
    behind.length = limit ∧ .depthExceeded ref (limit + 1) limit ∈ walk.warnings

/-- A part of a walk after which every schema that is new is settled. -/
structure Explored (description : Description) (limit : Nat) (roots : List Text)
    (before after : Walk) : Prop where
  grown : Grown before after
  settled : ∀ name ∈ after.visited, name ∈ before.visited ∨
    ∃ behind, Settled description limit roots after name behind

theorem Grown.refl (walk : Walk) : Grown walk walk :=
  ⟨List.Subset.refl _, List.Subset.refl _⟩

theorem Grown.trans {first second third : Walk} (one : Grown first second)
    (two : Grown second third) : Grown first third :=
  ⟨List.Subset.trans one.visited two.visited, List.Subset.trans one.warnings two.warnings⟩

theorem Settled.mono {before after : Walk} {name : Text} {behind : List Text}
    (settled : Settled description limit roots before name behind) (grown : Grown before after) :
    Settled description limit roots after name behind where
  trail := settled.trail
  nodup := settled.nodup
  visited := List.Subset.trans settled.visited grown.visited
  within := settled.within
  followed := by
    intro ref leads
    rcases settled.followed ref leads with seen | ⟨full, reported⟩
    · exact Or.inl (grown.visited seen)
    · exact Or.inr ⟨full, grown.warnings reported⟩

theorem Explored.of_grown {before after : Walk} (grown : Grown before after)
    (same : after.visited ⊆ before.visited) : Explored description limit roots before after :=
  ⟨grown, fun _ present => Or.inl (same present)⟩

theorem Explored.trans {first second third : Walk}
    (one : Explored description limit roots first second)
    (two : Explored description limit roots second third) :
    Explored description limit roots first third where
  grown := one.grown.trans two.grown
  settled := by
    intro name present
    rcases two.settled name present with old | new
    · rcases one.settled name old with older | ⟨behind, settled⟩
      · exact Or.inl older
      · exact Or.inr ⟨behind, settled.mono two.grown⟩
    · exact Or.inr new

/-- The state of a walk on entering a schema. -/
def enter (walk : Walk) (name : Text) : Walk := { walk with visited := name :: walk.visited }

@[simp] theorem visited_enter (walk : Walk) (name : Text) :
    (walk.enter name).visited = name :: walk.visited := rfl

@[simp] theorem visited_add (walk : Walk) (found : PropertyAlias) :
    (walk.add found).visited = walk.visited := by
  unfold add
  split <;> rfl

@[simp] theorem warnings_add (walk : Walk) (found : PropertyAlias) :
    (walk.add found).warnings = walk.warnings := by
  unfold add
  split <;> rfl

theorem visited_foldl_add (found : Property → PropertyAlias) (properties : List Property)
    (walk : Walk) :
    (properties.foldl (fun walk property => walk.add (found property)) walk).visited =
      walk.visited := by
  induction properties generalizing walk with
  | nil => rfl
  | cons property rest ih => rw [List.foldl_cons, ih, visited_add]

theorem warnings_foldl_add (found : Property → PropertyAlias) (properties : List Property)
    (walk : Walk) :
    (properties.foldl (fun walk property => walk.add (found property)) walk).warnings =
      walk.warnings := by
  induction properties generalizing walk with
  | nil => rfl
  | cons property rest ih => rw [List.foldl_cons, ih, warnings_add]

@[simp] theorem visited_addRelevant (walk : Walk) (schema : Schema) :
    (walk.addRelevant schema).visited = walk.visited :=
  visited_foldl_add _ _ walk

@[simp] theorem warnings_addRelevant (walk : Walk) (schema : Schema) :
    (walk.addRelevant schema).warnings = walk.warnings :=
  warnings_foldl_add _ _ walk

theorem mem_refsOf {schema : Schema} {ref : Text} :
    ref ∈ refsOf schema ↔ ∃ property ∈ schema.properties, ref ∈ schemaRefs property.type :=
  List.mem_flatMap

/-- Follows references in turn with `steps` more schemas allowed on the way. -/
def follow (description : Description) (limit steps : Nat) (refs : List Text) (walk : Walk) :
    Walk :=
  refs.foldl (fun walk ref => visit description limit steps ref walk) walk

theorem visit_seen {steps : Nat} {name : Text} {walk : Walk} (seen : name ∈ walk.visited) :
    visit description limit steps name walk = walk := by
  cases steps <;> simp [visit, seen]

theorem visit_cut {name : Text} {walk : Walk} (fresh : name ∉ walk.visited) :
    visit description limit 0 name walk = walk.warn (.depthExceeded name (limit + 1) limit) := by
  simp [visit, fresh]

theorem visit_object {steps : Nat} {name : Text} {walk : Walk} {schema : Schema}
    (fresh : name ∉ walk.visited) (object : description.objectSchema? name = some schema) :
    visit description limit (steps + 1) name walk =
      follow description limit steps (refsOf schema) ((walk.enter name).addRelevant schema) := by
  have found : description.schema? name = some (.ok schema) := by
    unfold Description.objectSchema? at object
    split at object
    · cases object
      assumption
    · simp at object
  have declared : (description.schemaType? name).isNone = false := by
    cases absent : description.schemaType? name with
    | none => simp [Description.schema?, Description.schemaBody?, absent] at found
    | some _ => rfl
  simp [visit, fresh, declared, found, enter, follow]

/-- A name that is no object schema leads nowhere: the walk enters it, and reports it if nothing
declares it. -/
theorem visit_other {steps : Nat} {name : Text} {walk : Walk} (fresh : name ∉ walk.visited)
    (leaf : description.objectSchema? name = none) :
    visit description limit (steps + 1) name walk =
      if (description.schemaType? name).isNone then
        (walk.enter name).warn (.schemaNotDeclared name)
      else walk.enter name := by
  unfold visit
  rw [if_neg fresh]
  dsimp only
  split
  · rfl
  · split
    · rename_i schema found
      simp [Description.objectSchema?, found] at leaf
    · rfl

theorem visit_leaf (limit steps : Nat) {name : Text} {walk : Walk} (fresh : name ∉ walk.visited)
    (leaf : description.objectSchema? name = none) :
    ∃ reported, (∀ warning ∈ reported, warning = .schemaNotDeclared name) ∧
      visit description limit (steps + 1) name walk =
        { walk.enter name with warnings := walk.warnings ++ reported } := by
  rw [visit_other fresh leaf]
  split
  · exact ⟨[.schemaNotDeclared name], by simp, rfl⟩
  · exact ⟨[], by simp, by simp [enter]⟩

/-- A reference that was gone to with `steps` more schemas allowed on the way. -/
def Met (limit steps : Nat) (walk : Walk) (ref : Text) : Prop :=
  ref ∈ walk.visited ∨ steps = 0 ∧ .depthExceeded ref (limit + 1) limit ∈ walk.warnings

theorem Met.mono {steps : Nat} {before after : Walk} {ref : Text} (met : Met limit steps before ref)
    (grown : Grown before after) : Met limit steps after ref := by
  rcases met with seen | ⟨none, reported⟩
  · exact Or.inl (grown.visited seen)
  · exact Or.inr ⟨none, grown.warnings reported⟩

theorem explored_follow {steps : Nat} {known refs : List Text} {walk : Walk}
    (visit_each : ∀ ref ∈ refs, ∀ walk : Walk, known ⊆ walk.visited →
      Explored description limit roots walk (visit description limit steps ref walk) ∧
        Met limit steps (visit description limit steps ref walk) ref)
    (seen : known ⊆ walk.visited) :
    Explored description limit roots walk (follow description limit steps refs walk) ∧
      ∀ ref ∈ refs, Met limit steps (follow description limit steps refs walk) ref := by
  induction refs generalizing walk with
  | nil => exact ⟨.of_grown (.refl walk) (List.Subset.refl _), by simp⟩
  | cons ref rest ih =>
    obtain ⟨first, met⟩ := visit_each ref List.mem_cons_self walk seen
    obtain ⟨others, later⟩ := ih
      (fun next member => visit_each next (List.mem_cons_of_mem ref member))
      (List.Subset.trans seen first.grown.visited)
    refine ⟨first.trans others, ?_⟩
    intro next member
    rcases List.mem_cons.mp member with rfl | member
    · exact met.mono others.grown
    · exact later next member

/-- An entered schema that is settled in the end, with all that was explored after it was entered. -/
theorem Explored.of_entered {name : Text} {behind : List Text} {walk entered after : Walk}
    (explored : Explored description limit roots entered after)
    (visited : entered.visited = name :: walk.visited) (warnings : entered.warnings = walk.warnings)
    (settled : Settled description limit roots after name behind) :
    Explored description limit roots walk after where
  grown :=
    ⟨List.Subset.trans (visited ▸ List.subset_cons_self _ _) explored.grown.visited,
      warnings ▸ explored.grown.warnings⟩
  settled := by
    intro other member
    rcases explored.settled other member with old | new
    · rw [visited] at old
      rcases List.mem_cons.mp old with rfl | older
      · exact Or.inr ⟨behind, settled⟩
      · exact Or.inl older
    · exact Or.inr new

/-- A schema that is no object leads to nothing, so that it is settled on being entered. -/
theorem explored_leaf (steps : Nat) {name : Text} {behind : List Text} {walk : Walk}
    (fresh : name ∉ walk.visited) (leaf : description.objectSchema? name = none)
    (trail : Trail description roots (name :: behind)) (simple : (name :: behind).Nodup)
    (known : behind ⊆ walk.visited) (within : behind.length ≤ limit) :
    Explored description limit roots walk (visit description limit (steps + 1) name walk) ∧
      name ∈ (visit description limit (steps + 1) name walk).visited := by
  obtain ⟨reported, _, same⟩ := visit_leaf limit steps fresh leaf
  rw [same]
  have grown : Grown (walk.enter name)
      { walk.enter name with warnings := walk.warnings ++ reported } :=
    ⟨List.Subset.refl _, List.subset_append_left _ _⟩
  have entered : Explored description limit roots (walk.enter name)
      { walk.enter name with warnings := walk.warnings ++ reported } :=
    .of_grown grown (List.Subset.refl _)
  refine ⟨entered.of_entered rfl rfl ⟨trail, simple, List.cons_subset_cons name known, within, ?_⟩,
    List.mem_cons_self⟩
  rintro ref ⟨schema, found, _⟩
  rw [leaf] at found
  cases found

/-- An object is settled when all its references have been gone to. -/
theorem explored_object {steps : Nat} {name : Text} {behind : List Text} {walk : Walk}
    {schema : Schema} (fresh : name ∉ walk.visited)
    (object : description.objectSchema? name = some schema)
    (trail : Trail description roots (name :: behind)) (simple : (name :: behind).Nodup)
    (known : behind ⊆ walk.visited) (bound : behind.length + (steps + 1) = limit + 1)
    (visit_each : ∀ ref, description.Leads name ref → ∀ walk : Walk, name :: behind ⊆ walk.visited →
      Explored description limit roots walk (visit description limit steps ref walk) ∧
        Met limit steps (visit description limit steps ref walk) ref) :
    Explored description limit roots walk (visit description limit (steps + 1) name walk) ∧
      name ∈ (visit description limit (steps + 1) name walk).visited := by
  rw [visit_object fresh object]
  have visited : ((walk.enter name).addRelevant schema).visited = name :: walk.visited :=
    visited_addRelevant (walk.enter name) schema
  have start : name :: behind ⊆ ((walk.enter name).addRelevant schema).visited :=
    visited ▸ List.cons_subset_cons name known
  have leads : ∀ ref ∈ refsOf schema, description.Leads name ref :=
    fun ref member => ⟨schema, object, mem_refsOf.mp member⟩
  obtain ⟨explored, met⟩ :=
    explored_follow (fun ref member => visit_each ref (leads ref member)) start
  have settled : Settled description limit roots
      (follow description limit steps (refsOf schema) ((walk.enter name).addRelevant schema))
      name behind := by
    refine ⟨trail, simple, List.Subset.trans start explored.grown.visited, by omega, ?_⟩
    rintro ref ⟨other, found, referred⟩
    cases object.symm.trans found
    rcases met ref (mem_refsOf.mpr referred) with seen | ⟨last, reported⟩
    · exact Or.inl seen
    · exact Or.inr ⟨by omega, reported⟩
  exact ⟨explored.of_entered visited (warnings_addRelevant (walk.enter name) schema) settled,
    settled.visited List.mem_cons_self⟩

/-- The induction is on the schemas still allowed: with the trail behind the schema they make up
the limit. -/
theorem explored_visit (steps : Nat) : ∀ (name : Text) (behind : List Text) (walk : Walk),
    Trail description roots (name :: behind) → behind.Nodup → behind ⊆ walk.visited →
    behind.length + steps = limit + 1 →
      Explored description limit roots walk (visit description limit steps name walk) ∧
        Met limit steps (visit description limit steps name walk) name := by
  induction steps with
  | zero =>
    intro name behind walk _ _ _ _
    by_cases fresh : name ∈ walk.visited
    · rw [visit_seen fresh]
      exact ⟨.of_grown (.refl walk) (List.Subset.refl _), Or.inl fresh⟩
    · rw [visit_cut fresh]
      have grown : Grown walk (walk.warn (.depthExceeded name (limit + 1) limit)) :=
        ⟨List.Subset.refl _, List.subset_append_left _ _⟩
      exact ⟨.of_grown grown (List.Subset.refl _), Or.inr ⟨rfl, by simp [warn]⟩⟩
  | succ steps ih =>
    intro name behind walk trail nodup known bound
    by_cases fresh : name ∈ walk.visited
    · rw [visit_seen fresh]
      exact ⟨.of_grown (.refl walk) (List.Subset.refl _), Or.inl fresh⟩
    have simple : (name :: behind).Nodup :=
      List.nodup_cons.mpr ⟨fun member => fresh (known member), nodup⟩
    cases object : description.objectSchema? name with
    | none =>
      have within : behind.length ≤ limit := by omega
      obtain ⟨explored, seen⟩ := explored_leaf steps fresh object trail simple known within
      exact ⟨explored, Or.inl seen⟩
    | some schema =>
      have longer : (name :: behind).length + steps = limit + 1 := by
        rw [List.length_cons]
        omega
      obtain ⟨explored, seen⟩ := explored_object fresh object trail simple known bound
        fun ref leads walk seen =>
          ih ref (name :: behind) walk (.step trail leads) simple seen longer
      exact ⟨explored, Or.inl seen⟩

/-- Every schema that a fresh walk has been to is settled, and it has been to every root. -/
theorem settled_fromRoots (description : Description) (limit : Nat) (roots : List Text) :
    (∀ name ∈ (fromRoots description limit roots start).visited,
      ∃ behind, Settled description limit roots (fromRoots description limit roots start) name
        behind) ∧
      ∀ root ∈ roots, root ∈ (fromRoots description limit roots start).visited := by
  have each : ∀ root ∈ roots, ∀ walk : Walk, [] ⊆ walk.visited →
      Explored description limit roots walk (visit description limit (limit + 1) root walk) ∧
        Met limit (limit + 1) (visit description limit (limit + 1) root walk) root :=
    fun root member walk seen =>
      explored_visit (limit + 1) root [] walk (.root member) List.nodup_nil seen (by simp)
  obtain ⟨explored, met⟩ := explored_follow each (List.nil_subset start.visited)
  constructor
  · intro name member
    rcases explored.settled name member with old | new
    · exact absurd old List.not_mem_nil
    · exact new
  · intro root member
    rcases met root member with seen | ⟨none, _⟩
    · exact seen
    · exact absurd none (Nat.succ_ne_zero limit)

end Walk

end TypedClient
