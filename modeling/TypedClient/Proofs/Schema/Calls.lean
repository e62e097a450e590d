import Mathlib.Algebra.BigOperators.Group.Finset.Basic
import TypedClient.Proofs.Schema.Completeness
import TypedClient.Proofs.Schema.References

/-!
The calls that a walk over schemas makes: one for each root, and one for each reference of a schema
that it expands. Main statement: however the schemas refer to each other, the calls come to an end
after as many as there are roots and references, also where the limit is too large to stop them; in
one context no schema is expanded twice; and roots that were walked from before change nothing.
-/

namespace TypedClient

/-- The schemas that a declared object literal refers to, in order; none for any other name. -/
def Description.referencesOf (description : Description) (name : Text) : List Text :=
  match description.objectSchema? name with
  | some schema => Walk.refsOf schema
  | none => []

namespace Walk

/-- A call still to be made: a schema, and how many references were followed to come to it. -/
structure Call where
  depth : Nat
  schema : Text
  deriving DecidableEq, Repr

/-- What a call finds: a visited schema, which it leaves alone, one beyond the limit, which it
reports, or one to expand. -/
inductive Outcome
  | seen
  | cut
  | expanded
  deriving DecidableEq, Repr

/-- A walk in progress, with the call to be made next in front. -/
structure Stage where
  pending : List Call
  walk : Walk

/-- Marks a schema as visited and collects what its declaration gives. -/
def expand (description : Description) (name : Text) (walk : Walk) : Walk :=
  if (description.schemaType? name).isNone then (walk.enter name).warn (.schemaNotDeclared name)
  else
    match description.objectSchema? name with
    | some schema => (walk.enter name).addRelevant schema
    | none => walk.enter name

/-- One call. The depth is counted up and compared with the limit; the calls of an expanded schema
come before those that were pending. -/
inductive Step (description : Description) (limit : Nat) : Stage → Call × Outcome → Stage → Prop
  | seen {call : Call} {rest : List Call} {walk : Walk} (known : call.schema ∈ walk.visited) :
      Step description limit ⟨call :: rest, walk⟩ (call, .seen) ⟨rest, walk⟩
  | cut {call : Call} {rest : List Call} {walk : Walk} (fresh : call.schema ∉ walk.visited)
      (beyond : limit < call.depth) :
      Step description limit ⟨call :: rest, walk⟩ (call, .cut)
        ⟨rest, walk.warn (.depthExceeded call.schema call.depth limit)⟩
  | expand {call : Call} {rest : List Call} {walk : Walk} (fresh : call.schema ∉ walk.visited)
      (within : call.depth ≤ limit) :
      Step description limit ⟨call :: rest, walk⟩ (call, .expanded)
        ⟨(description.referencesOf call.schema).map (Call.mk (call.depth + 1)) ++ rest,
          walk.expand description call.schema⟩

/-- Calls made one after another. -/
inductive Run (description : Description) (limit : Nat) :
    Stage → List (Call × Outcome) → Stage → Prop
  | done (stage : Stage) : Run description limit stage [] stage
  | call {first next last : Stage} {entry : Call × Outcome} {trace : List (Call × Outcome)}
      (step : Step description limit first entry next) (rest : Run description limit next trace last) :
      Run description limit first (entry :: trace) last

/-- The calls that a walk from these roots starts with. -/
def rootCalls (roots : List Text) : List Call := roots.map (Call.mk 0)

/-- Walks of one context after one another, each made to its end. What was visited is handed on;
aliases and warnings may be others for each walk. -/
inductive Session (description : Description) (limit : Nat) :
    List Text → List (Call × Outcome) → List Text → Prop
  | start (visited : List Text) : Session description limit visited [] visited
  | walk {first : List Text} {trace more : List (Call × Outcome)} {given after : Walk}
      (earlier : Session description limit first trace given.visited) (roots : List Text)
      (run : Run description limit ⟨rootCalls roots, given⟩ more ⟨[], after⟩) :
      Session description limit first (trace ++ more) after.visited

/-- The schemas that calls expanded, in order. -/
def expansions (trace : List (Call × Outcome)) : List Text :=
  trace.filterMap fun (call, outcome) => if outcome = .expanded then some call.schema else none

/-- The number of references of the declared schemas that were not visited. -/
def outstanding (description : Description) (visited : List Text) : Nat :=
  ∑ name ∈ description.schemaNames.toFinset \ visited.toFinset,
    (description.referencesOf name).length

/-- The calls a walk in progress still has to make. -/
def remaining (description : Description) (stage : Stage) : Nat :=
  stage.pending.length + outstanding description stage.walk.visited

variable {description : Description} {limit : Nat} {walk : Walk} {name : Text}
  {before after : Stage} {entry : Call × Outcome} {trace : List (Call × Outcome)}

@[simp] theorem visited_warn (walk : Walk) (warning : Warning) :
    (walk.warn warning).visited = walk.visited := rfl

@[simp] theorem visited_expand (description : Description) (name : Text) (walk : Walk) :
    (walk.expand description name).visited = name :: walk.visited := by
  unfold expand
  split
  · rfl
  · split
    · rw [visited_addRelevant, visited_enter]
    · rfl

@[simp] theorem expansions_nil : expansions [] = [] := rfl

@[simp] theorem expansions_append (front back : List (Call × Outcome)) :
    expansions (front ++ back) = expansions front ++ expansions back :=
  List.filterMap_append

theorem expansions_cons (entry : Call × Outcome) (rest : List (Call × Outcome)) :
    expansions (entry :: rest) = expansions [entry] ++ expansions rest :=
  expansions_append [entry] rest

theorem references_of_undeclared (absent : name ∉ description.schemaNames) :
    description.referencesOf name = [] := by
  have none : description.objectSchema? name = none := by
    cases object : description.objectSchema? name with
    | none => rfl
    | some schema =>
      obtain ⟨type, found⟩ := Option.ne_none_iff_exists'.mp (declared_of_objectSchema? object)
      exact absurd (List.mem_map.mpr ⟨(name, type), Table.mem_of_lookup found, rfl⟩) absent
  rw [Description.referencesOf, none]

/-- Visiting a schema takes its references off those outstanding. -/
theorem outstanding_cons {visited : List Text} (fresh : name ∉ visited) :
    (description.referencesOf name).length + outstanding description (name :: visited) =
      outstanding description visited := by
  have taken : description.schemaNames.toFinset \ (name :: visited).toFinset =
      (description.schemaNames.toFinset \ visited.toFinset).erase name := by
    rw [List.toFinset_cons, Finset.sdiff_insert]
  unfold outstanding
  rw [taken]
  by_cases declared : name ∈ description.schemaNames
  · refine Finset.add_sum_erase _ (fun name => (description.referencesOf name).length) ?_
    simp [declared, fresh]
  · rw [references_of_undeclared declared, Finset.erase_eq_of_notMem (by simp [declared])]
    simp

/-- Every call is one less to make: a cycle only leads back to visited schemas, whose references are
no longer counted. -/
theorem Step.remaining (step : Step description limit before entry after) :
    remaining description after + 1 = remaining description before := by
  cases step with
  | seen => simp only [Walk.remaining, List.length_cons]; omega
  | cut => simp only [Walk.remaining, List.length_cons, visited_warn]; omega
  | @expand call rest walk fresh =>
    have taken : (description.referencesOf call.schema).length +
        outstanding description (call.schema :: walk.visited) =
          outstanding description walk.visited := outstanding_cons fresh
    simp only [Walk.remaining, List.length_append, List.length_map, List.length_cons,
      visited_expand]
    omega

theorem Run.remaining (run : Run description limit before trace after) :
    remaining description after + trace.length = remaining description before := by
  induction run with
  | done => rfl
  | call step _ ih =>
    have one := step.remaining
    rw [List.length_cons]
    omega

/-- No call was deeper than the declared schemas visited so far. -/
def Shallow (description : Description) (stage : Stage) : Prop :=
  ∀ call ∈ stage.pending,
    call.depth ≤ (description.schemaNames.toFinset ∩ stage.walk.visited.toFinset).card

theorem shallow_rootCalls (roots : List Text) (walk : Walk) :
    Shallow description ⟨rootCalls roots, walk⟩ := by
  intro call member
  obtain ⟨root, _, rfl⟩ := List.mem_map.mp member
  exact Nat.zero_le _

theorem Shallow.depth_le (shallow : Shallow description before) {call : Call}
    (member : call ∈ before.pending) : call.depth ≤ description.schemaNames.length :=
  calc
    call.depth ≤ (description.schemaNames.toFinset ∩ before.walk.visited.toFinset).card :=
      shallow call member
    _ ≤ description.schemaNames.toFinset.card := Finset.card_le_card Finset.inter_subset_left
    _ ≤ description.schemaNames.length := List.toFinset_card_le _

/-- A schema with references is declared, so that one more declared schema is visited by the time
the calls for its references come in. -/
theorem Step.shallow (step : Step description limit before entry after)
    (shallow : Shallow description before) : Shallow description after := by
  cases step with
  | @seen call rest walk => exact fun later member => shallow later (List.mem_cons_of_mem call member)
  | @cut call rest walk => exact fun later member => shallow later (List.mem_cons_of_mem call member)
  | @expand call rest walk fresh =>
    intro later member
    rw [visited_expand, List.toFinset_cons]
    rcases List.mem_append.mp member with own | earlier
    · obtain ⟨ref, referred, rfl⟩ := List.mem_map.mp own
      have declared : call.schema ∈ description.schemaNames := by
        by_contra absent
        rw [references_of_undeclared absent] at referred
        exact List.not_mem_nil referred
      have more : description.schemaNames.toFinset ∩ insert call.schema walk.visited.toFinset =
          insert call.schema (description.schemaNames.toFinset ∩ walk.visited.toFinset) :=
        Finset.inter_insert_of_mem (List.mem_toFinset.mpr declared)
      rw [more, Finset.card_insert_of_notMem (by simp [fresh])]
      exact Nat.succ_le_succ (shallow call List.mem_cons_self)
    · refine (shallow later (List.mem_cons_of_mem call earlier)).trans (Finset.card_le_card ?_)
      exact Finset.inter_subset_inter_left (Finset.subset_insert _ _)

theorem Step.head_mem (step : Step description limit before entry after) :
    entry.1 ∈ before.pending := by
  cases step <;> exact List.mem_cons_self

theorem Run.depth_le (run : Run description limit before trace after)
    (shallow : Shallow description before) :
    ∀ entry ∈ trace, entry.1.depth ≤ description.schemaNames.length := by
  induction run with
  | done => simp
  | call step _ ih =>
    intro entry member
    rcases List.mem_cons.mp member with rfl | later
    · exact shallow.depth_le step.head_mem
    · exact ih (step.shallow shallow) entry later

theorem Step.unique {other : Call × Outcome} {next : Stage}
    (one : Step description limit before entry after)
    (two : Step description limit before other next) : entry = other ∧ after = next := by
  cases one with
  | seen known =>
    cases two with
    | seen => exact ⟨rfl, rfl⟩
    | cut fresh => exact absurd known fresh
    | expand fresh => exact absurd known fresh
  | cut fresh beyond =>
    cases two with
    | seen known => exact absurd known fresh
    | cut => exact ⟨rfl, rfl⟩
    | expand _ within => exact absurd within (Nat.not_le.mpr beyond)
  | expand fresh within =>
    cases two with
    | seen known => exact absurd known fresh
    | cut _ beyond => exact absurd within (Nat.not_le.mpr beyond)
    | expand => exact ⟨rfl, rfl⟩

/-- A walk in progress has one way to its end. -/
theorem Run.unique {other : List (Call × Outcome)} {one two : Walk}
    (run : Run description limit before trace ⟨[], one⟩)
    (run' : Run description limit before other ⟨[], two⟩) : trace = other ∧ one = two := by
  generalize ended : (⟨[], one⟩ : Stage) = last at run
  induction run generalizing other with
  | done =>
    subst ended
    cases run' with
    | done => exact ⟨rfl, rfl⟩
    | call step => cases step
  | call step rest ih =>
    cases run' with
    | done => cases step
    | call step' rest' =>
      obtain ⟨rfl, rfl⟩ := step.unique step'
      obtain ⟨rfl, same⟩ := ih rest' ended
      exact ⟨rfl, same⟩

theorem Run.append {middle : Stage} {more : List (Call × Outcome)}
    (run : Run description limit before trace middle)
    (rest : Run description limit middle more after) :
    Run description limit before (trace ++ more) after := by
  induction run with
  | done => exact rest
  | call step _ ih => exact .call step (ih rest)

theorem visit_fresh (steps : Nat) (fresh : name ∉ walk.visited) :
    visit description limit (steps + 1) name walk =
      follow description limit steps (description.referencesOf name)
        (walk.expand description name) := by
  unfold expand Description.referencesOf
  cases object : description.objectSchema? name with
  | some schema =>
    have declared : (description.schemaType? name).isNone = false :=
      Option.isNone_eq_false_iff.mpr
        (Option.isSome_iff_ne_none.mpr (declared_of_objectSchema? object))
    rw [visit_object fresh object, declared]
    rfl
  | none =>
    rw [visit_other fresh object]
    rfl

theorem run_follow {depth steps : Nat} (refs : List Text) (rest : List Call)
    (each : ∀ ref rest walk, ∃ trace, Run description limit ⟨⟨depth, ref⟩ :: rest, walk⟩ trace
      ⟨rest, visit description limit steps ref walk⟩) (walk : Walk) :
    ∃ trace, Run description limit ⟨refs.map (Call.mk depth) ++ rest, walk⟩ trace
      ⟨rest, follow description limit steps refs walk⟩ := by
  induction refs generalizing walk with
  | nil => exact ⟨[], .done _⟩
  | cons ref refs ih =>
    obtain ⟨first, one⟩ := each ref (refs.map (Call.mk depth) ++ rest) walk
    obtain ⟨others, more⟩ := ih (visit description limit steps ref walk)
    exact ⟨first ++ others, one.append more⟩

/-- The recursion of a walk is the run of its calls. The induction is on the schemas still allowed,
which with the depth make up the limit. -/
theorem run_visit (steps : Nat) : ∀ (depth : Nat) (name : Text) (rest : List Call) (walk : Walk),
    depth + steps = limit + 1 → ∃ trace, Run description limit ⟨⟨depth, name⟩ :: rest, walk⟩ trace
      ⟨rest, visit description limit steps name walk⟩ := by
  induction steps with
  | zero =>
    intro depth name rest walk bound
    by_cases known : name ∈ walk.visited
    · rw [visit_seen known]
      exact ⟨_, .call (.seen known) (.done _)⟩
    · have full : depth = limit + 1 := bound
      subst full
      rw [visit_cut known]
      exact ⟨_, .call (.cut known (Nat.lt_succ_self limit)) (.done _)⟩
  | succ steps ih =>
    intro depth name rest walk bound
    by_cases known : name ∈ walk.visited
    · rw [visit_seen known]
      exact ⟨_, .call (.seen known) (.done _)⟩
    · obtain ⟨trace, run⟩ := run_follow (description.referencesOf name) rest
        (fun ref rest walk => ih (depth + 1) ref rest walk (by omega))
        (walk.expand description name)
      have within : depth ≤ limit := by omega
      rw [visit_fresh steps known]
      exact ⟨_, .call (.expand known within) run⟩

theorem run_fromRoots (description : Description) (limit : Nat) (roots : List Text)
    (walk : Walk) : ∃ trace, Run description limit ⟨rootCalls roots, walk⟩ trace
      ⟨[], fromRoots description limit roots walk⟩ := by
  have each : ∀ ref rest walk, ∃ trace, Run description limit ⟨⟨0, ref⟩ :: rest, walk⟩ trace
      ⟨rest, visit description limit (limit + 1) ref walk⟩ :=
    fun ref rest walk => run_visit (limit + 1) 0 ref rest walk (Nat.zero_add _)
  have run := run_follow roots [] each walk
  rwa [List.append_nil] at run

/-- What a call does depends on what was visited, and only an expansion adds to that. -/
theorem Step.marks (step : Step description limit before entry after) :
    after.walk.visited = (expansions [entry]).reverse ++ before.walk.visited ∧
      (entry.2 = .seen ↔ entry.1.schema ∈ before.walk.visited) ∧
      (entry.2 = .cut → limit < entry.1.depth) := by
  cases step with
  | seen known => exact ⟨rfl, iff_of_true rfl known, nofun⟩
  | cut fresh beyond => exact ⟨rfl, iff_of_false nofun fresh, fun _ => beyond⟩
  | @expand call rest walk fresh =>
    exact ⟨visited_expand description call.schema walk, iff_of_false nofun fresh, nofun⟩

theorem Run.visited (run : Run description limit before trace after) :
    after.walk.visited = (expansions trace).reverse ++ before.walk.visited := by
  induction run with
  | done => rfl
  | @call _ _ _ entry trace step _ ih =>
    rw [ih, step.marks.1, expansions_cons entry trace, List.reverse_append, List.append_assoc]

/-- A call within the limit leaves its schema visited. -/
theorem Run.visits {last : Walk} (run : Run description limit before trace ⟨[], last⟩) :
    ∀ call ∈ before.pending, call.depth ≤ limit → call.schema ∈ last.visited := by
  generalize ended : (⟨[], last⟩ : Stage) = final at run
  induction run with
  | done =>
    subst ended
    exact fun _ member => absurd member List.not_mem_nil
  | call step rest ih =>
    subst ended
    have grown := rest.visited
    intro call member within
    cases step with
    | seen known =>
      rcases List.mem_cons.mp member with rfl | later
      · exact grown ▸ List.mem_append_right _ known
      · exact ih rfl call later within
    | cut fresh beyond =>
      rcases List.mem_cons.mp member with rfl | later
      · exact absurd within (Nat.not_le.mpr beyond)
      · exact ih rfl call later within
    | expand =>
      rcases List.mem_cons.mp member with rfl | later
      · rw [grown, visited_expand]
        exact List.mem_append_right _ List.mem_cons_self
      · exact ih rfl call (List.mem_append_right _ later) within

/-- A walk over roots that were visited is over before it starts. -/
theorem fromRoots_of_visited {roots : List Text} (known : ∀ root ∈ roots, root ∈ walk.visited) :
    fromRoots description limit roots walk = walk := by
  induction roots with
  | nil => rfl
  | cons root roots ih =>
    have first : visit description limit (limit + 1) root walk = walk :=
      visit_seen (known root List.mem_cons_self)
    rw [fromRoots, List.foldl_cons, first]
    exact ih fun other member => known other (List.mem_cons_of_mem root member)

theorem roots_visited {roots : List Text} :
    ∀ root ∈ roots, root ∈ (fromRoots description limit roots walk).visited := by
  obtain ⟨trace, run⟩ := run_fromRoots description limit roots walk
  exact fun root member => run.visits ⟨0, root⟩ (List.mem_map_of_mem member) (Nat.zero_le limit)

/-- Each call of a trace finds what was marked before it, and only calls beyond the limit are cut
off. -/
def Marked (limit : Nat) : List Text → List (Call × Outcome) → Prop
  | _, [] => True
  | visited, entry :: rest =>
    ((entry.2 = .seen ↔ entry.1.schema ∈ visited) ∧ (entry.2 = .cut → limit < entry.1.depth)) ∧
      Marked limit ((expansions [entry]).reverse ++ visited) rest

theorem Marked.append {visited : List Text} {more : List (Call × Outcome)}
    (marked : Marked limit visited trace)
    (others : Marked limit ((expansions trace).reverse ++ visited) more) :
    Marked limit visited (trace ++ more) := by
  induction trace generalizing visited with
  | nil => exact others
  | cons entry rest ih =>
    rw [expansions_cons, List.reverse_append, List.append_assoc] at others
    exact ⟨marked.1, ih marked.2 others⟩

theorem Marked.at_entry {visited : List Text} {front back : List (Call × Outcome)}
    (marked : Marked limit visited (front ++ entry :: back)) :
    (entry.2 = .seen ↔ entry.1.schema ∈ (expansions front).reverse ++ visited) ∧
      (entry.2 = .cut → limit < entry.1.depth) := by
  induction front generalizing visited with
  | nil => exact marked.1
  | cons first front ih =>
    rw [expansions_cons, List.reverse_append, List.append_assoc]
    exact ih marked.2

/-- What is expanded was not visited before, and is from then on. -/
theorem Marked.nodup {visited : List Text} (marked : Marked limit visited trace) :
    (expansions trace).Nodup ∧ ∀ name ∈ expansions trace, name ∉ visited := by
  induction trace generalizing visited with
  | nil => exact ⟨List.nodup_nil, by simp⟩
  | cons entry rest ih =>
    obtain ⟨call, outcome⟩ := entry
    obtain ⟨nodup, fresh⟩ := ih marked.2
    by_cases expanded : outcome = .expanded
    · subst expanded
      have own : call.schema ∉ visited := fun seen => nomatch marked.1.1.mpr seen
      have head : expansions ((call, .expanded) :: rest) = call.schema :: expansions rest := rfl
      rw [head]
      refine ⟨List.nodup_cons.mpr ⟨fun again => fresh _ again List.mem_cons_self, nodup⟩, ?_⟩
      intro name member
      rcases List.mem_cons.mp member with rfl | later
      · exact own
      · exact fun seen => fresh name later (List.mem_cons_of_mem _ seen)
    · have none : expansions [(call, outcome)] = [] := by simp [expansions, expanded]
      rw [none] at fresh
      rw [expansions_cons, none]
      exact ⟨nodup, fresh⟩

theorem Run.marked (run : Run description limit before trace after) :
    Marked limit before.walk.visited trace := by
  induction run with
  | done => trivial
  | call step _ ih =>
    rw [step.marks.1] at ih
    exact ⟨step.marks.2, ih⟩

theorem Session.visited {first visited : List Text}
    (session : Session description limit first trace visited) :
    visited = (expansions trace).reverse ++ first := by
  induction session with
  | start => rfl
  | walk _ _ run ih =>
    rw [run.visited, ih, expansions_append, List.reverse_append, List.append_assoc]

theorem Session.marked {first visited : List Text}
    (session : Session description limit first trace visited) : Marked limit first trace := by
  induction session with
  | start => trivial
  | walk earlier _ run ih => exact ih.append (earlier.visited ▸ run.marked)

/-- However the schemas refer to each other and whatever the limit is: a walk has one way to its
end, with no more calls than roots and references and none deeper than there are schemas; in one
context each schema is expanded once and only then marked as visited, so that a schema that is cut
off is not; and to walk from visited roots changes nothing. -/
theorem walks_end_without_repeats (description : Description) (limit : Nat) :
    (∀ (roots : List Text) (walk : Walk),
      (∀ trace stage, Run description limit ⟨rootCalls roots, walk⟩ trace stage →
        trace.length ≤ roots.length + outstanding description walk.visited ∧
          ∀ entry ∈ trace, entry.1.depth ≤ description.schemaNames.length) ∧
      ∃ trace, ∀ other after, Run description limit ⟨rootCalls roots, walk⟩ other ⟨[], after⟩ ↔
        other = trace ∧ after = fromRoots description limit roots walk) ∧
    (∀ first trace visited, Session description limit first trace visited →
      visited = (expansions trace).reverse ++ first ∧ (expansions trace).Nodup ∧
      (∀ name ∈ expansions trace, name ∉ first) ∧
      ∀ front call back, trace = front ++ (call, .cut) :: back →
        limit < call.depth ∧ call.schema ∉ (expansions front).reverse ++ first) ∧
    ∀ (roots : List Text) (walk later : Walk),
      (fromRoots description limit roots walk).visited ⊆ later.visited →
        fromRoots description limit roots later = later := by
  refine ⟨fun roots walk => ⟨fun trace stage run => ⟨?_, ?_⟩, ?_⟩, ?_, ?_⟩
  · have left := run.remaining
    have pending : (rootCalls roots).length = roots.length := List.length_map _
    simp only [remaining, pending] at left
    omega
  · exact run.depth_le (shallow_rootCalls roots walk)
  · obtain ⟨trace, run⟩ := run_fromRoots description limit roots walk
    refine ⟨trace, fun other after => ⟨fun another => another.unique run, ?_⟩⟩
    rintro ⟨rfl, rfl⟩
    exact run
  · intro first trace visited session
    obtain ⟨nodup, fresh⟩ := session.marked.nodup
    refine ⟨session.visited, nodup, fresh, ?_⟩
    rintro front call back rfl
    obtain ⟨seen, beyond⟩ := session.marked.at_entry
    exact ⟨beyond rfl, fun known => nomatch seen.mpr known⟩
  · intro roots walk later kept
    exact fromRoots_of_visited fun root member => kept (roots_visited root member)

/-- Schemas that refer to each other, walked with a limit that nothing comes up to. -/
theorem league_walks_end :
    ∃ trace, Session league (2 ^ 64 - 1) [] trace
        (fromRoots league (2 ^ 64 - 1) ["Team"] start).visited ∧
      (fromRoots league (2 ^ 64 - 1) ["Team"] start).visited = (expansions trace).reverse ∧
      (expansions trace).Nodup ∧ trace.length ≤ 4 ∧
      fromRoots league (2 ^ 64 - 1) ["Team"] (fromRoots league (2 ^ 64 - 1) ["Team"] start) =
        fromRoots league (2 ^ 64 - 1) ["Team"] start := by
  obtain ⟨walks, sessions, again⟩ := walks_end_without_repeats league (2 ^ 64 - 1)
  obtain ⟨bounded, trace, only⟩ := walks ["Team"] start
  have run := (only trace _).mpr ⟨rfl, rfl⟩
  have session := Session.walk (.start []) ["Team"] run
  obtain ⟨visited, nodup, _⟩ := sessions _ _ _ session
  have references : outstanding league [] = 3 := by decide +kernel
  have length := (bounded trace _ run).1
  rw [show start.visited = [] from rfl, references] at length
  exact ⟨trace, session, by rw [visited, List.append_nil]; rfl, nodup, length,
    again ["Team"] start _ (List.Subset.refl _)⟩

end Walk

end TypedClient
