import TypedClient.Config.Basic
import TypedClient.Proofs.Schema.Ranking
import TypedClient.Proofs.Schema.Reachability

/-!
What a walk over schemas collects. Main statement: a walk that the limit never cuts off visits
exactly the schemas that can be reached from its roots, and collects the relevant properties of
each in one block.
-/

namespace TypedClient

/-- Whether a warning says that a walk was cut off at its limit. -/
def Warning.isDepthExceeded : Warning → Bool
  | depthExceeded .. => true
  | _ => false

/-- Whether an alias has the name of one found earlier. -/
def PropertyAlias.repeats (found earlier : PropertyAlias) : Bool := earlier.name == found.name

/-- The aliases of the relevant properties of a schema, in the order of their ranking. -/
def Schema.rankedAliases (schema : Schema) : List PropertyAlias :=
  ((schema.properties.filter Property.isRelevant).mergeSort Property.precedes).map
    (PropertyAlias.mk schema.name)

namespace Walk

variable {description : Description} {limit : Nat} {roots : List Text}

theorem eraseDupsBy_loop_append {α : Type} (same : α → α → Bool) (front back kept : List α) :
    List.eraseDupsBy.loop same (front ++ back) kept =
      List.eraseDupsBy.loop same back (List.eraseDupsBy.loop same front kept).reverse := by
  induction front generalizing kept with
  | nil => simp [List.eraseDupsBy.loop]
  | cons a front ih =>
    rw [List.cons_append, List.eraseDupsBy.loop, List.eraseDupsBy.loop]
    split <;> exact ih _

theorem eraseDupsBy_concat {α : Type} (same : α → α → Bool) (front : List α) (a : α) :
    (front ++ [a]).eraseDupsBy same =
      if (front.eraseDupsBy same).any (same a) then front.eraseDupsBy same
      else front.eraseDupsBy same ++ [a] := by
  unfold List.eraseDupsBy
  rw [eraseDupsBy_loop_append]
  simp only [List.eraseDupsBy.loop, List.any_reverse]
  split <;> simp_all

theorem aliases_add {walk : Walk} {found : List PropertyAlias} (new : PropertyAlias)
    (collected : walk.aliases = found.eraseDupsBy PropertyAlias.repeats) :
    (walk.add new).aliases = (found ++ [new]).eraseDupsBy PropertyAlias.repeats := by
  rw [eraseDupsBy_concat, ← collected]
  unfold add PropertyAlias.repeats
  split <;> rfl

theorem aliases_addRelevant {walk : Walk} {found : List PropertyAlias} (schema : Schema)
    (collected : walk.aliases = found.eraseDupsBy PropertyAlias.repeats) :
    (walk.addRelevant schema).aliases =
      (found ++ schema.rankedAliases).eraseDupsBy PropertyAlias.repeats := by
  unfold addRelevant Schema.rankedAliases
  rw [Property.ranked_eq_mergeSort]
  generalize (schema.properties.filter Property.isRelevant).mergeSort Property.precedes = ranked
  induction ranked generalizing walk found with
  | nil => simpa using collected
  | cons property rest ih =>
    rw [List.foldl_cons, List.map_cons, List.append_cons]
    exact ih (aliases_add _ collected)

/-- What holds of a walk at any time: no schema was entered twice, and the aliases are those of the
schemas in the order in which they were entered. -/
structure Collected (description : Description) (walk : Walk) : Prop where
  nodup : walk.visited.Nodup
  aliases : walk.aliases =
    ((walk.visited.reverse.filterMap description.objectSchema?).flatMap
      Schema.rankedAliases).eraseDupsBy PropertyAlias.repeats

theorem collected_visit (steps : Nat) : ∀ (name : Text) (walk : Walk), Collected description walk →
    Collected description (visit description limit steps name walk) := by
  induction steps with
  | zero =>
    intro name walk collected
    by_cases fresh : name ∈ walk.visited
    · rwa [visit_seen fresh]
    · rw [visit_cut fresh]
      exact ⟨collected.nodup, collected.aliases⟩
  | succ steps ih =>
    intro name walk collected
    by_cases fresh : name ∈ walk.visited
    · rwa [visit_seen fresh]
    have nodup : (name :: walk.visited).Nodup := List.nodup_cons.mpr ⟨fresh, collected.nodup⟩
    cases object : description.objectSchema? name with
    | none =>
      obtain ⟨reported, _, same⟩ := visit_leaf limit steps fresh object
      rw [same]
      refine ⟨nodup, ?_⟩
      simpa [List.filterMap_append, object, enter] using collected.aliases
    | some schema =>
      rw [visit_object fresh object]
      refine List.foldlRecOn _ _ ?_ (fun walk collected ref _ => ih ref walk collected)
      constructor
      · rwa [visited_addRelevant, visited_enter]
      · rw [visited_addRelevant, visited_enter, List.reverse_cons, List.filterMap_append,
          List.flatMap_append]
        have block : List.filterMap description.objectSchema? [name] = [schema] := by
          simp [object]
        rw [block, List.flatMap_singleton]
        exact aliases_addRelevant schema collected.aliases

theorem collected_fromRoots : Collected description (fromRoots description limit roots start) := by
  have empty : Collected description start := ⟨List.nodup_nil, rfl⟩
  refine List.foldlRecOn _ _ empty ?_
  intro walk collected root _
  exact collected_visit _ root walk collected

/-- A walk that is never cut off is complete: it visits exactly what can be reached, and its
aliases are the relevant properties of the visited schemas, schema by schema in the order of
entering, each block stably sorted by descending priority, without the names found before. -/
theorem complete_of_not_cut_off (description : Description) (limit : Nat) (roots : List Text)
    (untruncated : ∀ warning ∈ (fromRoots description limit roots start).warnings,
      warning.isDepthExceeded = false) :
    (∀ name, name ∈ (fromRoots description limit roots start).visited ↔
      ∃ root ∈ roots, Relation.ReflTransGen description.Leads root name) ∧
    (fromRoots description limit roots start).visited.Nodup ∧
    (fromRoots description limit roots start).aliases =
      (((fromRoots description limit roots start).visited.reverse.filterMap
        description.objectSchema?).flatMap Schema.rankedAliases).eraseDupsBy
          PropertyAlias.repeats := by
  obtain ⟨settled, entered⟩ := settled_fromRoots description limit roots
  have collected : Collected description (fromRoots description limit roots start) :=
    collected_fromRoots
  refine ⟨fun name => ⟨?_, ?_⟩, collected.nodup, collected.aliases⟩
  · intro visited
    obtain ⟨behind, ending⟩ := settled name visited
    exact ending.trail.reached
  · rintro ⟨root, present, reached⟩
    induction reached with
    | refl => exact entered root present
    | tail _ leads ih =>
      obtain ⟨behind, ending⟩ := settled _ ih
      rcases ending.followed _ leads with visited | ⟨_, reported⟩
      · exact visited
      · exact absurd (untruncated _ reported) (by simp [Warning.isDepthExceeded])

/-- Two schemas that refer to each other, and a reference to one that is not declared. -/
def leagueText : Text :=
  "interface components " ++ "\x7b schemas: \x7b " ++
    "Team: \x7b name: string; " ++ "kind: 'club' | 'nation'; " ++
      "captain: " ++ "components['schemas']['Player'] \x7d; " ++
    "Player: \x7b team: " ++ "components['schemas']['Team']; " ++
      "agent: " ++ "components['schemas']['Agent'] \x7d " ++
  "\x7d \x7d"

def league : Description := (Description.ofText leagueText).value

def leagueWalk : Walk := fromRoots league standardDepth ["Team"] start

theorem league_walk_complete :
    (∀ warning ∈ leagueWalk.warnings, warning.isDepthExceeded = false) ∧
    (∀ name, name ∈ leagueWalk.visited ↔
      ∃ root ∈ [("Team".toList : Text)], Relation.ReflTransGen league.Leads root name) ∧
    leagueWalk.visited.Nodup ∧
    leagueWalk.aliases = ((leagueWalk.visited.reverse.filterMap league.objectSchema?).flatMap
      Schema.rankedAliases).eraseDupsBy PropertyAlias.repeats := by
  have untruncated : ∀ warning ∈ leagueWalk.warnings, warning.isDepthExceeded = false := by
    decide +kernel
  exact ⟨untruncated, complete_of_not_cut_off league standardDepth ["Team"] untruncated⟩

end Walk

end TypedClient
