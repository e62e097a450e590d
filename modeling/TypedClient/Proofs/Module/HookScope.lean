import TypedClient.Proofs.Module.Allocation
import TypedClient.Proofs.Module.Imports
import TypedClient.Proofs.Name.Characters

/-!
The names of hooks beside the names that their module imports. Main statement: a hook is never named
like a wrapper, nor like the notifier; it is named like the function of the query library that it calls
exactly if its wrapper is the first with the name that gives this, and no wrapper has the name itself.
-/

namespace TypedClient

open Text Name

section Unique

variable {α : Type} {base name : Text} {used : List Text}

/-- A name that ends in no digit is given out only as a base. -/
theorem base_of_unique (ending : name.getLast?.any Char.isDigit = false)
    (given : unique base used = name) : base = name := by
  obtain ⟨digits, numeric, numbered⟩ := unique_eq base used
  rw [numbered] at given
  cases last : digits.getLast? with
  | none => rwa [List.getLast?_eq_none_iff.mp last, List.append_nil] at given
  | some c =>
    rw [← given, List.getLast?_append, last, Option.some_or, Option.any_some] at ending
    rw [List.all_eq_true.mp numeric c (List.mem_of_getLast? last)] at ending
    contradiction

theorem unique_eq_iff (ending : name.getLast?.any Char.isDigit = false) :
    unique base used = name ↔ base = name ∧ name ∉ used := by
  constructor
  · intro given
    exact ⟨base_of_unique ending given, given ▸ unique_not_mem base used⟩
  · rintro ⟨rfl, free⟩
    exact if_neg free

/-- Of what is named in turn, the first with a base gets that base as its name, unless it is used. -/
theorem find?_uniques {baseOf nameOf : α → Text} {items : List α}
    (ending : name.getLast?.any Char.isDigit = false)
    (named : items.map nameOf = uniques used (items.map baseOf)) :
    items.find? (nameOf · = name) =
      if name ∈ used then none else items.find? (baseOf · = name) := by
  induction items generalizing used with
  | nil => simp
  | cons item rest ih =>
    obtain ⟨first, later⟩ := List.cons.inj named
    by_cases free : baseOf item = name ∧ name ∉ used
    · have own : nameOf item = name := first.trans ((unique_eq_iff ending).mpr free)
      rw [List.find?_cons_of_pos (by simpa using own), if_neg free.2,
        List.find?_cons_of_pos (by simpa using free.1)]
    · have other : nameOf item ≠ name := fun own =>
        free ((unique_eq_iff ending).mp (first.symm.trans own))
      rw [List.find?_cons_of_neg (by simpa using other), ih later, ← first]
      by_cases taken : name ∈ used
      · rw [if_pos taken, if_pos (List.mem_cons_of_mem _ taken)]
      · have untaken : name ∉ nameOf item :: used := by
          simpa [taken] using other.symm
        have notBase : baseOf item ≠ name := fun base => free ⟨base, taken⟩
        rw [if_neg taken, if_neg untaken, List.find?_cons_of_neg (by simpa using notBase)]

end Unique

namespace HookModules

variable {operations : List OperationTypes} {config : Config} {source name : Text} {hook : Hook}

/-- The names that a module of query hooks imports of the query library. -/
def queryImports : List Text := ["useQuery".toList, "UseQueryOptions".toList]

/-- The names that a module of mutation hooks imports of the query library and of the notifier. -/
def mutationImports (config : Config) : List Text :=
  "useMutation".toList :: (if config.notifications.usesNotifier then ["notify".toList] else [])

/-- No name is bound twice in a module with these hooks and imports. -/
structure Apart (imports : List Text) (hooks : List Hook) : Prop where
  names : ∀ hook ∈ hooks, hook.name ∉ hooks.map (·.wrapper.name) ∧ hook.name ∉ imports
  wrappers : ∀ hook ∈ hooks, hook.wrapper.name ∉ imports

theorem names_hooksFor (config : Config) (operations : List OperationTypes) (source : Text) :
    (hooksFor config operations source).map (·.name) =
      uniques ((FoundWrapper.findAll source).map (·.name))
        ((hooksFor config operations source).map
          fun hook => HookContext.hookName hook.wrapper.name) :=
  (HookContext.names_plan _ _ _).2

theorem name_not_wrapper (member : hook ∈ hooksFor config operations source) :
    hook.name ∉ (FoundWrapper.findAll source).map (·.name) := by
  apply not_mem_of_mem_uniques
  rw [← names_hooksFor]
  exact List.mem_map_of_mem member

/-- The name of a hook begins with `use`. -/
theorem starts_with_use (member : hook ∈ hooksFor config operations source) :
    "use".toList <+: hook.name := by
  have given : hook.name ∈ (hooksFor config operations source).map (·.name) :=
    List.mem_map_of_mem member
  rw [names_hooksFor] at given
  obtain ⟨base, listed, digits, _, same⟩ := eq_of_mem_uniques given
  obtain ⟨planned, _, rfl⟩ := List.mem_map.mp listed
  rw [same, HookContext.hookName, List.append_assoc]
  exact List.prefix_append _ _

/-- Which hook has a name: the first whose wrapper gives the name, unless a wrapper has it. -/
theorem find?_name (ending : name.getLast?.any Char.isDigit = false) :
    (hooksFor config operations source).find? (·.name = name) =
      if name ∈ (FoundWrapper.findAll source).map (·.name) then none
      else (hooksFor config operations source).find?
        fun hook => HookContext.hookName hook.wrapper.name = name :=
  find?_uniques ending (names_hooksFor config operations source)

theorem eq_of_name {other : Hook} (member : hook ∈ hooksFor config operations source)
    (listed : other ∈ hooksFor config operations source) (same : hook.name = other.name) :
    hook = other := by
  have distinct : ((hooksFor config operations source).map (·.name)).Nodup := by
    rw [names_hooksFor]
    exact nodup_uniques _ _
  exact List.inj_on_of_nodup_map distinct member listed same

/-- No wrapper of the module has this name, and of all hooks the first whose wrapper gives it is one
of these. -/
def Takes (config : Config) (operations : List OperationTypes) (source : Text) (part : Hook → Bool)
    (name : Text) : Prop :=
  name ∉ (FoundWrapper.findAll source).map (·.name) ∧
    ∃ hook ∈ (hooksFor config operations source).find?
      fun hook => HookContext.hookName hook.wrapper.name = name, part hook = true

theorem takes_iff (part : Hook → Bool) (ending : name.getLast?.any Char.isDigit = false) :
    Takes config operations source part name ↔
      ∃ hook ∈ (hooksFor config operations source).filter part, hook.name = name := by
  have first := @find?_name operations config source name ending
  constructor
  · rintro ⟨free, hook, found, kept⟩
    rw [if_neg free] at first
    rw [← first] at found
    exact ⟨hook, List.mem_filter.mpr ⟨List.mem_of_find?_eq_some found, kept⟩,
      by simpa using List.find?_some found⟩
  · rintro ⟨hook, member, rfl⟩
    obtain ⟨listed, kept⟩ := List.mem_filter.mp member
    have free := name_not_wrapper listed
    rw [if_neg free] at first
    refine ⟨free, hook, ?_, kept⟩
    rw [← first]
    cases found : (hooksFor config operations source).find? (·.name = hook.name) with
    | none => exact absurd (List.find?_eq_none.mp found hook listed) (by simp)
    | some other =>
      have same : other.name = hook.name := by simpa using List.find?_some found
      rw [eq_of_name (List.mem_of_find?_eq_some found) listed same]
      rfl

/-- What keeps names apart in a module that imports one name that a hook can have. -/
theorem apart_iff {part : Hook → Bool} {imports : List Text}
    (ending : name.getLast?.any Char.isDigit = false) (own : name ∈ imports)
    (others : ∀ other ∈ imports, other ≠ name → ¬ "use".toList <+: other) :
    Apart imports ((hooksFor config operations source).filter part) ↔
      (∀ hook ∈ (hooksFor config operations source).filter part, hook.wrapper.name ∉ imports) ∧
        ¬ Takes config operations source part name := by
  rw [takes_iff part ending]
  constructor
  · rintro ⟨names, wrappers⟩
    refine ⟨wrappers, ?_⟩
    rintro ⟨hook, member, rfl⟩
    exact (names hook member).2 own
  · rintro ⟨wrappers, untaken⟩
    refine ⟨fun hook member => ⟨fun served => ?_, fun imported => ?_⟩, wrappers⟩
    · obtain ⟨other, listed, same⟩ := List.mem_map.mp served
      obtain ⟨found, _⟩ := HookContext.of_mem_plan (List.mem_filter.mp listed).1
      exact name_not_wrapper (List.mem_filter.mp member).1
        (List.mem_map.mpr ⟨other.wrapper, found, same⟩)
    · by_cases same : hook.name = name
      · exact untaken ⟨hook, member, same⟩
      · exact others _ imported same (starts_with_use (List.mem_filter.mp member).1)

/-- When the names of hooks and of wrappers are apart from what their module imports. -/
theorem names_apart_iff {modules : Reported HookModules}
    (made : generate source operations config = .ok modules) :
    let hooks := hooksFor config operations source
    modules.value =
        ofHooks (HookContext.ofOperations operations config.verbs).names config hooks ∧
      (∀ hook ∈ hooks, hook.name ∉ (FoundWrapper.findAll source).map (·.name)) ∧
      (Apart queryImports (hooks.filter Hook.isQuery) ↔
        (∀ hook ∈ hooks.filter Hook.isQuery, hook.wrapper.name ∉ queryImports) ∧
          ¬ Takes config operations source Hook.isQuery "useQuery") ∧
      (Apart (mutationImports config) (hooks.filter fun hook => !hook.isQuery) ↔
        (∀ hook ∈ hooks.filter fun hook => !hook.isQuery,
          hook.wrapper.name ∉ mutationImports config) ∧
          ¬ Takes config operations source (fun hook => !hook.isQuery) "useMutation") := by
  have planned : modules.value = madeFrom config operations source := value_of_generate made
  refine ⟨planned, fun hook member => name_not_wrapper member, ?_, ?_⟩
  · apply apart_iff (by decide) (by decide)
    decide
  · apply apart_iff (by decide) List.mem_cons_self
    intro other imported different
    rcases List.mem_cons.mp imported with rfl | notifier
    · exact absurd rfl different
    · split at notifier
      · rw [List.mem_singleton.mp notifier]
        decide
      · contradiction

/-- A wrapper that makes a request with this method. -/
def sourceOf (name method : Text) : Text :=
  "export const " ++ name ++ " = async () => \x7b\n  return http." ++ method ++
    "('/search');\n\x7d;\n"

/-- The hook for it, without types. -/
def hookOf (name : Text) (method : Method) : Hook :=
  ⟨"use" ++ pascal name, ⟨name, none, some method, [], none⟩, method, [],
    ⟨none, none, HookTypes.unknownType⟩⟩

def searchSource : Text := sourceOf "search" "get" ++ "\n" ++ sourceOf "query" "post"

theorem search_names_apart :
    ∃ modules, generate searchSource [] .standard = .ok modules ∧
      modules.value.queryHooks = ["useSearch".toList] ∧
      modules.value.mutationHooks = ["useQuery".toList] ∧
      Apart queryImports ((hooksFor .standard [] searchSource).filter Hook.isQuery) ∧
      Apart (mutationImports .standard)
        ((hooksFor .standard [] searchSource).filter fun hook => !hook.isQuery) := by
  have known : Config.standard.templates.unknown? = none := by decide +kernel
  obtain ⟨modules, made, _⟩ := generate_known known [] searchSource
  obtain ⟨same, _, queries, mutations⟩ := names_apart_iff made
  have hooks : hooksFor .standard [] searchSource =
      [hookOf "search" .get, hookOf "query" .post] := by decide +kernel
  rw [hooks] at same
  refine ⟨modules, made, by rw [same]; decide, by rw [same]; decide, queries.mpr ?_,
    mutations.mpr ?_⟩
  · rw [takes_iff _ (by decide), hooks]
    decide
  · rw [takes_iff _ (by decide), hooks]
    decide

/-- The hook for a wrapper `query` has the name of the function that it calls. -/
theorem query_hook_shadows :
    ∃ modules, generate (sourceOf "query" "get") [] .standard = .ok modules ∧
      modules.value.queryHooks = ["useQuery".toList] ∧
      ¬ Apart queryImports ((hooksFor .standard [] (sourceOf "query" "get")).filter Hook.isQuery) ∧
      "import \x7b useQuery \x7d from".toList <:+: modules.value.queries ∧
      "export const useQuery = (".toList <:+: modules.value.queries := by
  have known : Config.standard.templates.unknown? = none := by decide +kernel
  obtain ⟨modules, made, same⟩ := generate_known known [] (sourceOf "query" "get")
  have hooks : hooksFor .standard [] (sourceOf "query" "get") = [hookOf "query" .get] := by
    decide +kernel
  rw [madeFrom, hooks] at same
  refine ⟨modules, made, by rw [same]; decide, fun apart => ?_, ?_⟩
  · rw [hooks] at apart
    exact (apart.names (hookOf "query" .get) (by decide)).2 (by decide)
  · rw [same]
    decide +kernel

end HookModules

end TypedClient
