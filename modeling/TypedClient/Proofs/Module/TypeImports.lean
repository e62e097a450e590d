import TypedClient.Proofs.Module.Allocation
import TypedClient.Proofs.Module.Imports
import TypedClient.Proofs.Operation.DistinctAliases
import TypedClient.Proofs.TypeText.Token

/-!
The generated types that hooks mention, and those that their module imports. Main statement: a module
imports the aliases that are the whole of a type of one of its hooks, so that every alias that it
mentions is imported exactly if each of them stands alone in some type of the module. Only a type that
is copied from a signature can mention an alias that it is not the whole of.
-/

namespace TypedClient

open Text Name

/-- Whether a type names something as an identifier of its own. -/
def Mentions (type name : Text) : Prop := isPlain name = true ∧ .word name ∈ tokensOf type

instance (type name : Text) : Decidable (Mentions type name) :=
  inferInstanceAs (Decidable (_ ∧ _))

/-- A text of name characters is one word. -/
theorem tokensOf_word {name : Text} (filled : name ≠ [])
    (letters : name.all FoundWrapper.isNameChar = true) : tokensOf name = [.word name] := by
  have cut : pieces name = name.map .code := by
    have inert := all_imp isInert_of_isNameChar letters
    simpa [pieces] using pieces_append_code inert []
  rw [tokensOf, cut, List.map_map]
  exact Token.foldr_name filled letters fun _ next => absurd next (by simp)

/-- A plain name mentions itself and nothing else. -/
theorem mentions_of_isPlain {type name : Text} (plain : isPlain type = true)
    (mentioned : Mentions type name) : name = type := by
  have letters : type.all FoundWrapper.isNameChar = true := all_of_isPlain (by decide) plain
  have read := mentioned.2
  rw [tokensOf_word (ne_nil_of_isPlain plain) letters, List.mem_singleton] at read
  exact Token.word.inj read

namespace HookTypes

variable {operations : List OperationTypes} {wrapper : FoundWrapper} {types : HookTypes}

def texts (types : HookTypes) : List Text :=
  types.params.toList ++ types.body.toList ++ [types.result]

/-- Whether a type is an alias of the operations, or one of the types that stand for no alias. -/
def IsNamed (operations : List OperationTypes) (type : Text) : Prop :=
  type ∈ (Module.aliasesOf operations).map (·.name) ∨ type = "void" ∨ type = unknownType

/-- Where all aliases are identifiers, such a type mentions nothing but itself. -/
theorem IsNamed.eq_of_mentions {type name : Text} (named : IsNamed operations type)
    (plain : ∀ entry ∈ Module.aliasesOf operations, isPlain entry.name = true)
    (mentioned : Mentions type name) : name = type := by
  refine mentions_of_isPlain ?_ mentioned
  rcases named with listed | rfl | rfl
  · obtain ⟨entry, inside, rfl⟩ := List.mem_map.mp listed
    exact plain entry inside
  · decide
  · decide

theorem isNamed_fit (named : ∀ type ∈ types.texts, IsNamed operations type) :
    ∀ type ∈ (types.fit wrapper).texts, IsNamed operations type := by
  have slot (slot : Slot) (given : Option Text) (fine : ∀ type ∈ given, IsNamed operations type) :
      ∀ type ∈ fitSlot wrapper slot given, IsNamed operations type := by
    intro type member
    unfold fitSlot at member
    split at member
    · cases given with
      | none => exact .inr (.inr (Option.some.inj member).symm)
      | some own => exact fine type member
    · contradiction
  intro type member
  simp only [texts, List.mem_append, Option.mem_toList, List.mem_singleton] at named member
  rcases member with (params | body) | result
  · exact slot .params types.params (fun type given => named type (.inl (.inl given))) type params
  · exact slot .body types.body (fun type given => named type (.inl (.inr given))) type body
  · exact named type (.inr result)

theorem isNamed_fallback : ∀ type ∈ (fallback wrapper).texts, IsNamed operations type := by
  apply isNamed_fit
  intro type member
  exact .inr (.inr (List.mem_singleton.mp member))

/-- The types of an operation are its aliases. -/
theorem isNamed_ofOperation {found : OperationTypes} (listed : found ∈ operations) :
    ∀ type ∈ (ofOperation found).texts, IsNamed operations type := by
  have inside : found.aliases.map (·.name) ⊆ (Module.aliasesOf operations).map (·.name) :=
    List.map_subset _ fun entry inside => List.mem_flatMap.mpr ⟨found, listed, inside⟩
  intro type member
  rcases List.mem_append.mp member with argument | result
  · refine .inl (inside ?_)
    rw [OperationTypes.names_aliases, List.append_assoc]
    exact List.mem_append_left _ argument
  · rw [List.mem_singleton.mp result]
    by_cases void : found.resultType = "void"
    · exact .inr (.inl void)
    · exact .inl (inside (found.resultType_mem void))

theorem isNamed_ofOperationId? (found : ofOperationId? operations wrapper = some types) :
    ∀ type ∈ types.texts, IsNamed operations type := by
  simp only [ofOperationId?, Option.bind_eq_bind, Option.bind_eq_some_iff,
    Option.map_eq_some_iff] at found
  obtain ⟨_, _, operation, first, rfl⟩ := found
  exact isNamed_ofOperation (List.mem_of_find?_eq_some first)

end HookTypes

namespace HookContext

variable {operations : List OperationTypes} {verbs : VerbPrefixes} {wrapper : FoundWrapper}

theorem mem_typeNames {name : Text} : name ∈ (ofOperations operations verbs).names.typeNames ↔
    name ∈ (Module.aliasesOf operations).map (·.name) :=
  Table.mem_sorted

theorem isNamed_hookTypes? {types : HookTypes}
    (found : (ofOperations operations verbs).names.hookTypes? wrapper = some types) :
    ∀ type ∈ types.texts, HookTypes.IsNamed operations type := by
  have named (operation : Text) (kind : AliasKind) (type : Text)
      (given : (ofOperations operations verbs).names.alias? operation kind = some type) :
      HookTypes.IsNamed operations type := by
    unfold NameTable.alias? at given
    split at given
    · cases given
      exact .inl (mem_typeNames.mp ‹_›)
    · contradiction
  simp only [NameTable.hookTypes?, Option.bind_eq_bind, Option.bind_eq_some_iff] at found
  obtain ⟨operation, _, result, answer, made⟩ := found
  cases made
  intro type member
  simp only [HookTypes.texts, List.mem_append, Option.mem_toList, List.mem_singleton] at member
  rcases member with (params | body) | rfl
  · exact named operation .params type params
  · exact named operation .body type body
  · rcases Option.or_eq_some_iff.mp answer with payload | ⟨_, response⟩
    · exact named operation .payload type payload
    · exact named operation .response type response

/-- A type that is not read from a signature is an alias or stands for none. -/
theorem isNamed_resolve (unsigned : HookTypes.ofSignature? wrapper = none) :
    ∀ type ∈ (TypeSource.resolve operations (ofOperations operations verbs).names
      TypeSource.all wrapper).value.texts, HookTypes.IsNamed operations type := by
  unfold TypeSource.resolve
  split
  · rename_i types first
    rw [TypeSource.all, List.findSome?_cons, TypeSource.find?, unsigned] at first
    obtain ⟨source, listed, found⟩ := List.exists_of_findSome?_eq_some first
    apply HookTypes.isNamed_fit
    rcases List.mem_pair.mp listed with rfl | rfl
    · exact HookTypes.isNamed_ofOperationId? found
    · exact isNamed_hookTypes? found
  · exact HookTypes.isNamed_fallback

end HookContext

namespace HookModules

variable {operations : List OperationTypes} {config : Config} {source text : Text}
  {hooks : List Hook} {names : NameTable} {name : Text}

/-- Whether a type of one of these hooks mentions an alias of the operations. -/
def Mentioned (operations : List OperationTypes) (hooks : List Hook) (name : Text) : Prop :=
  name ∈ (Module.aliasesOf operations).map (·.name) ∧
    ∃ hook ∈ hooks, ∃ type ∈ hook.typeNames, Mentions type name

/-- The line that imports types from the types module. -/
def typeImportLine (types : List Text) : Text :=
  "import type" ++ " \x7b " ++ join ", " types ++ " \x7d from '" ++ "./types" ++ "';"

theorem getLast?_typeImportLine (types : List Text) :
    (typeImportLine types).getLast? = some ';' := by
  unfold typeImportLine
  generalize join ", " types = listed
  simp [List.getLast?_cons]

/-- What a module with these hooks imports of the aliases that it mentions. -/
structure TypesImported (operations : List OperationTypes) (names : NameTable) (hooks : List Hook)
    (text : Text) : Prop where
  written : generatedNames names hooks ≠ [] →
    '\n' :: typeImportLine (Table.sorted (generatedNames names hooks)) <:+: text
  /-- An alias is imported if it is the whole of some type. -/
  imported : ∀ name, name ∈ generatedNames names hooks ↔
    name ∈ (Module.aliasesOf operations).map (·.name) ∧ isPlain name = true ∧
      ∃ hook ∈ hooks, name ∈ hook.typeNames
  complete : (∀ name, Mentioned operations hooks name → name ∈ generatedNames names hooks) ↔
    ∀ name, Mentioned operations hooks name → ∃ hook ∈ hooks, name ∈ hook.typeNames
  /-- Where all aliases are identifiers, types from signatures decide. -/
  signed : (∀ entry ∈ Module.aliasesOf operations, isPlain entry.name = true) →
    ((∀ name, Mentioned operations hooks name → name ∈ generatedNames names hooks) ↔
      ∀ name, Mentioned operations
        (hooks.filter fun hook => (HookTypes.ofSignature? hook.wrapper).isSome) name →
          ∃ hook ∈ hooks, name ∈ hook.typeNames)

theorem typeImport_eq (needed : generatedNames names hooks ≠ []) :
    typeImport names hooks = typeImportLine (Table.sorted (generatedNames names hooks)) := by
  have filled : Table.sorted (generatedNames names hooks) ≠ [] := by
    obtain ⟨name, inside⟩ := List.exists_mem_of_ne_nil _ needed
    exact List.ne_nil_of_mem (Table.mem_sorted.mpr inside)
  unfold typeImport Module.importLine? typeImportLine
  split
  · exact absurd ‹_› filled
  · rename_i first more sorted
    rw [sorted]
    rfl

/-- An import of a module of hooks is a line of it. -/
theorem line_infix_assemble {imports : List (Option Text)} {blocks : List Text} {line : Text}
    (listed : some line ∈ imports) (filled : blocks ≠ [])
    (ending : line.getLast?.any (fun c => !isBlank c) = true) :
    '\n' :: line <:+: assemble imports blocks := by
  have inside : line ∈ imports.filterMap id := List.mem_filterMap.mpr ⟨_, listed, rfl⟩
  rw [assemble, if_neg filled]
  exact Module.line_infix_assemble List.mem_cons_self ending (line_infix_join inside)

theorem typeImportLine_infix {imports : List (Option Text)} {render : Hook → Text}
    (needed : generatedNames names hooks ≠ []) (listed : typeImport names hooks ∈ imports) :
    '\n' :: typeImportLine (Table.sorted (generatedNames names hooks)) <:+:
      assemble imports (hooks.map render) := by
  have filled : hooks.map render ≠ [] := by
    intro none
    rw [List.map_eq_nil_iff.mp none] at needed
    exact needed rfl
  rw [typeImport_eq needed] at listed
  apply line_infix_assemble listed filled
  rw [getLast?_typeImportLine]
  rfl

theorem mem_generatedNames (operations : List OperationTypes) (verbs : VerbPrefixes)
    (hooks : List Hook) (name : Text) :
    name ∈ generatedNames (HookContext.ofOperations operations verbs).names hooks ↔
      name ∈ (Module.aliasesOf operations).map (·.name) ∧ isPlain name = true ∧
        ∃ hook ∈ hooks, name ∈ hook.typeNames := by
  simp only [generatedNames, List.mem_filter, List.mem_flatMap, Bool.and_eq_true,
    decide_eq_true_eq, HookContext.mem_typeNames]
  exact ⟨fun ⟨whole, plain, known⟩ => ⟨known, plain, whole⟩,
    fun ⟨known, plain, whole⟩ => ⟨whole, plain, known⟩⟩

/-- A type that is not read from a signature is the whole of every alias that it mentions. -/
theorem mem_typeNames_of_unsigned {hook : Hook} {type : Text}
    (plain : ∀ entry ∈ Module.aliasesOf operations, isPlain entry.name = true)
    (planned : hook ∈ hooksFor config operations source)
    (unsigned : HookTypes.ofSignature? hook.wrapper = none) (member : type ∈ hook.typeNames)
    (mentioned : Mentions type name) : name ∈ hook.typeNames := by
  have named := (HookContext.of_mem_plan planned).2 ▸ HookContext.isNamed_resolve unsigned
  rwa [(named type member).eq_of_mentions plain mentioned]

theorem typesImported (planned : hooks ⊆ hooksFor config operations source)
    (known : names = (HookContext.ofOperations operations config.verbs).names)
    (written : generatedNames names hooks ≠ [] →
      '\n' :: typeImportLine (Table.sorted (generatedNames names hooks)) <:+: text) :
    TypesImported operations names hooks text := by
  have imported := known ▸ mem_generatedNames operations config.verbs hooks
  have complete : (∀ name, Mentioned operations hooks name →
      name ∈ generatedNames names hooks) ↔
      ∀ name, Mentioned operations hooks name → ∃ hook ∈ hooks, name ∈ hook.typeNames := by
    constructor
    · exact fun all name mentioned => ((imported name).mp (all name mentioned)).2.2
    · intro all name mentioned
      obtain ⟨known, hook, listed, type, member, plain, word⟩ := mentioned
      exact (imported name).mpr
        ⟨known, plain, all name ⟨known, hook, listed, type, member, plain, word⟩⟩
  refine ⟨written, imported, complete, fun plain => complete.trans ⟨?_, ?_⟩⟩
  · rintro all name ⟨known, hook, listed, mentioned⟩
    exact all name ⟨known, hook, (List.mem_filter.mp listed).1, mentioned⟩
  · rintro all name ⟨known, hook, listed, type, member, mentioned⟩
    cases signed : HookTypes.ofSignature? hook.wrapper with
    | none =>
      exact ⟨hook, listed,
        mem_typeNames_of_unsigned plain (planned listed) signed member mentioned⟩
    | some types =>
      refine all name ⟨known, hook, List.mem_filter.mpr ⟨listed, ?_⟩, type, member, mentioned⟩
      rw [signed, Option.isSome_some]

/-- In both modules of a tag the aliases that are whole types are imported, and no others. -/
theorem types_imported_iff {modules : Reported HookModules}
    (made : generate source operations config = .ok modules) :
    let names := (HookContext.ofOperations operations config.verbs).names
    let hooks := hooksFor config operations source
    modules.value = ofHooks names config hooks ∧
      TypesImported operations names (hooks.filter Hook.isQuery) modules.value.queries ∧
      TypesImported operations names (hooks.filter fun hook => !hook.isQuery)
        modules.value.mutations := by
  have planned : modules.value = madeFrom config operations source := value_of_generate made
  intro names hooks
  refine ⟨planned, ?_, ?_⟩
  · refine typesImported (List.filter_subset_self hooks) rfl fun needed => ?_
    rw [planned]
    exact typeImportLine_infix needed (.tail _ (.tail _ (.tail _ (.head _))))
  · refine typesImported (List.filter_subset_self hooks) rfl fun needed => ?_
    rw [planned]
    exact typeImportLine_infix needed (.tail _ (.tail _ (.tail _ (.head _))))

/-- An operation with a payload. -/
def listOperations : List OperationTypes :=
  [⟨"list", .get, "/teams", [], none, none, .schema "TeamList", some (.schema "Team"), none⟩]

/-- A wrapper for the operation with this result. -/
def sourceFor (name result : Text) : Text :=
  "export const " ++ name ++ " = async (): Promise<" ++ result ++
    "> => \x7b\n  return http.get('/teams');\n\x7d;\n"

/-- The hook for it. -/
def hookFor (name result : Text) : Hook :=
  ⟨"use" ++ pascal name, ⟨name, none, some .get, [], some result⟩, .get, [], ⟨none, none, result⟩⟩

/-- Wrappers that give the payload, and a list of it. -/
def teamSource : Text :=
  sourceFor "firstTeam" "list_RO" ++ "\n" ++ sourceFor "listTeams" "list_RO[]"

theorem hooksFor_teamSource : hooksFor .standard listOperations teamSource =
    [hookFor "firstTeam" "list_RO", hookFor "listTeams" "list_RO[]"] := by
  decide +kernel

theorem team_types_imported :
    ∃ modules, generate teamSource listOperations .standard = .ok modules ∧
      modules.value.queryHooks = ["useFirstTeam".toList, "useListTeams".toList] ∧
      '\n' :: typeImportLine ["list_RO".toList] <:+: modules.value.queries ∧
      Mentions "list_RO[]" "list_RO" ∧
      ∀ name, Mentioned listOperations (hooksFor .standard listOperations teamSource) name →
        name = "list_RO" := by
  have known : Config.standard.templates.unknown? = none := by decide +kernel
  obtain ⟨modules, made, _⟩ := generate_known known listOperations teamSource
  obtain ⟨same, queries, _⟩ := types_imported_iff made
  rw [hooksFor_teamSource] at same queries
  rw [hooksFor_teamSource]
  have whole : ∀ name ∈ (Module.aliasesOf listOperations).map (·.name),
      (∃ hook ∈ [hookFor "firstTeam" "list_RO", hookFor "listTeams" "list_RO[]"],
        ∃ type ∈ hook.typeNames, Mentions type name) → name = "list_RO" := by decide +kernel
  have listed : Table.sorted (generatedNames
      (HookContext.ofOperations listOperations Config.standard.verbs).names
      ([hookFor "firstTeam" "list_RO", hookFor "listTeams" "list_RO[]"].filter Hook.isQuery)) =
        ["list_RO".toList] := by
    decide +kernel
  refine ⟨modules, made, ?_, ?_, by decide +kernel, fun name mentioned =>
    whole name mentioned.1 mentioned.2⟩
  · rw [same]
    decide +kernel
  · rw [← listed]
    exact queries.written (by decide +kernel)

/-- The only hook gives a list of the payload: the element type is mentioned and not imported. -/
theorem element_not_imported :
    ∃ modules, generate (sourceFor "listTeams" "list_RO[]") listOperations .standard = .ok modules ∧
      (let hooks := hooksFor .standard listOperations (sourceFor "listTeams" "list_RO[]")
      hooks.all Hook.isQuery = true ∧ Mentioned listOperations hooks "list_RO" ∧
        "list_RO".toList ∉
          generatedNames (HookContext.ofOperations listOperations .standard).names hooks) ∧
      "useQuery<list_RO[]>".toList <:+: modules.value.queries ∧
      ¬ "./types".toList <:+: modules.value.queries := by
  have known : Config.standard.templates.unknown? = none := by decide +kernel
  obtain ⟨modules, made, same⟩ :=
    generate_known known listOperations (sourceFor "listTeams" "list_RO[]")
  have hooks : hooksFor .standard listOperations (sourceFor "listTeams" "list_RO[]") =
      [hookFor "listTeams" "list_RO[]"] := by decide +kernel
  rw [madeFrom, hooks] at same
  rw [hooks]
  refine ⟨modules, made,
    ⟨by decide +kernel, ⟨by decide +kernel, by decide +kernel⟩, by decide +kernel⟩, ?_⟩
  rw [same]
  decide +kernel

end HookModules

end TypedClient
