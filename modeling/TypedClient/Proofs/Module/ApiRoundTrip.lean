import TypedClient.Proofs.Module.WrapperRoundTrip
import TypedClient.Proofs.Operation.AliasNames
import TypedClient.Proofs.Traversal

/-!
Modules of wrappers read back. Main statement: the text that is generated for the operations of a
tag holds exactly one wrapper for each of them, and reading it gives what was written.
-/

namespace TypedClient

open Text Name FoundWrapper

namespace Path

theorem placeholder?_subset {text name after : Text}
    (found : placeholder? text = some (name, after)) : name ⊆ text ∧ after ⊆ text := by
  unfold placeholder? at found
  split at found
  · rename_i rest
    split at found
    · rename_i c tail follow taken remains
      cases found
      have inName : c :: tail ⊆ rest := taken ▸ (List.takeWhile_sublist isPlaceholderChar).subset
      have behind : '}' :: after ⊆ rest :=
        remains ▸ (List.dropWhile_sublist isPlaceholderChar).subset
      exact ⟨List.subset_cons_of_subset _ inName,
        List.subset_cons_of_subset _ (List.Subset.trans (List.subset_cons_self _ _) behind)⟩
    · contradiction
  · contradiction

theorem mem_consLiteral {c : Char} {found : List Part} {name : Text}
    (member : Part.placeholder name ∈ consLiteral c found) : Part.placeholder name ∈ found := by
  unfold consLiteral at member
  split at member
  · rcases List.mem_cons.mp member with same | later
    · contradiction
    · exact List.mem_cons_of_mem _ later
  · rcases List.mem_cons.mp member with same | later
    · contradiction
    · exact later

/-- The characters of a placeholder stand in its path. -/
theorem subset_of_mem_parts {path : Text} :
    ∀ name, Part.placeholder name ∈ parts path → name ⊆ path := by
  fun_induction parts path with
  | case1 => simp
  | case2 c rest name after found ih =>
    obtain ⟨inside, behind⟩ := placeholder?_subset found
    intro other member
    rcases List.mem_cons.mp member with literal | member
    · contradiction
    rcases List.mem_cons.mp member with same | later
    · cases same
      exact inside
    · exact List.Subset.trans (ih other later) behind
  | case3 c rest none ih =>
    intro name member
    exact List.subset_cons_of_subset c (ih name (mem_consLiteral member))

theorem subset_of_mem_placeholders {path name : Text} (member : name ∈ placeholders path) :
    name ⊆ path := by
  obtain ⟨part, listed, found⟩ := List.mem_filterMap.mp member
  cases part with
  | literal text => contradiction
  | placeholder inside =>
    cases found
    exact subset_of_mem_parts _ listed

end Path

namespace Endpoint

variable {operations : List OperationTypes}

theorem mem_plan {endpoint : Endpoint} (member : endpoint ∈ plan operations) :
    ∃ types ∈ operations, ∃ name ∈ uniques [] (operations.map fun types =>
      Path.constantName types.method types.path),
      endpoint = ⟨types.id, types.method, types.path, name, argumentsOf types.path⟩ := by
  unfold plan at member
  rw [← List.map_uncurry_zip_eq_zipWith] at member
  obtain ⟨⟨types, name⟩, pair, rfl⟩ := List.mem_map.mp member
  obtain ⟨listed, named⟩ := List.of_mem_zip pair
  exact ⟨types, listed, name, named, rfl⟩

theorem capital_of_mem_plan {endpoint : Endpoint} (member : endpoint ∈ plan operations) :
    endpoint.name.all isCapital = true := by
  obtain ⟨types, listed, name, named, rfl⟩ := mem_plan member
  refine all_of_mem_uniques isCapital_of_isDigit ?_ named
  intro base based
  obtain ⟨other, _, rfl⟩ := List.mem_map.mp based
  exact all_constant _

theorem tame_of_mem_plan (inPath : ∀ types ∈ operations, types.path.all isPathChar = true)
    {endpoint : Endpoint} (member : endpoint ∈ plan operations) : endpoint.Tame := by
  refine ⟨capital_of_mem_plan member, ?_⟩
  obtain ⟨types, listed, name, named, rfl⟩ := mem_plan member
  intro placeholder bound
  have inside := (List.of_mem_zip bound).1
  apply List.all_eq_true.mpr
  intro c here
  exact List.all_eq_true.mp (inPath types listed) c (Path.subset_of_mem_placeholders inside here)

theorem operations_plan (operations : List OperationTypes) :
    (plan operations).map (·.operation) = operations.map (·.id) := by
  unfold plan
  rw [map_zipWith_left (g := Endpoint.operation) (h := OperationTypes.id) fun _ _ => rfl]
  simp

/-- An endpoint is planned for every operation. -/
theorem find?_plan {types : OperationTypes} (listed : types ∈ operations) :
    ∃ endpoint ∈ plan operations,
      (plan operations).find? (fun endpoint => endpoint.operation = types.id) = some endpoint := by
  have present : types.id ∈ (plan operations).map (·.operation) := by
    rw [operations_plan]
    exact List.mem_map_of_mem listed
  obtain ⟨endpoint, member, same⟩ := List.mem_map.mp present
  cases found : (plan operations).find? fun endpoint => endpoint.operation = types.id with
  | none =>
    have absent := List.find?_eq_none.mp found endpoint member
    simp [same] at absent
  | some first => exact ⟨first, List.mem_of_find?_eq_some found, rfl⟩

end Endpoint

/-- The ids are plain, the methods known, and paths and parameter names are made of few
characters. -/
def Restricted (operations : List OperationTypes) : Prop :=
  ∀ types ∈ operations, isPlain types.id = true ∧ types.method ∈ Method.known ∧
    types.path.all isPathChar = true ∧
    ∀ parameter ∈ types.parameters, parameter.name.all isParameterChar = true

instance (operations : List OperationTypes) : Decidable (Restricted operations) :=
  inferInstanceAs (Decidable (∀ types ∈ operations, isPlain types.id = true ∧
    types.method ∈ Method.known ∧ types.path.all isPathChar = true ∧
    ∀ parameter ∈ types.parameters, parameter.name.all isParameterChar = true))

/-- What reading the wrapper of an operation gives. -/
def OperationTypes.foundAs (types : OperationTypes) (name : Text) : FoundWrapper where
  name := name
  operation := some types.id
  method := some types.method
  arguments := (types.paramsType?.map fun type => ⟨"params", some type⟩).toList ++
    (types.bodyType?.map fun type => ⟨"body", some type⟩).toList
  returnType := some types.resultType

namespace OperationTypes

theorem isPlain_aliasName {id : Text} (plain : isPlain id = true) (kind : AliasKind) :
    isPlain (kind.aliasName id) = true :=
  (AliasKind.isPlain_aliasName (ne_nil_of_isPlain plain) kind).trans plain

theorem isPlain_resultType {types : OperationTypes} (plain : isPlain types.id = true) :
    isPlain types.resultType = true := by
  unfold resultType
  split
  · exact isPlain_aliasName plain .payload
  · split
    · decide
    · exact isPlain_aliasName plain .response

theorem found_ofTypes (types : OperationTypes) (name : Text) :
    (Wrapper.ofTypes name types).found = types.foundAs name := by
  unfold Wrapper.found Wrapper.arguments foundAs Wrapper.ofTypes
  dsimp only
  cases types.paramsType? <;> cases types.bodyType? <;> rfl

end OperationTypes

namespace DomainApi

theorem mapM_endpointFor (server tag : Text) (operations : List OperationTypes)
    {planned : List Endpoint}
    (each : ∀ types ∈ operations, ∃ endpoint ∈ planned,
      planned.find? (fun endpoint => endpoint.operation = types.id) = some endpoint) :
    ∃ endpoints, operations.mapM (endpointFor server tag planned) = .ok endpoints ∧
      endpoints.length = operations.length ∧ endpoints ⊆ planned := by
  refine mapM_ok fun types listed => ?_
  obtain ⟨endpoint, member, found⟩ := each types listed
  exact ⟨endpoint, by rw [endpointFor, found], member⟩

variable {operations : List OperationTypes} {verbs : VerbPrefixes}

theorem plain_of_mem_wrappersOf (worded : verbs.Worded) (restricted : Restricted operations)
    {wrapper : Wrapper} (member : wrapper ∈ wrappersOf verbs operations) : wrapper.Plain := by
  unfold wrappersOf at member
  rw [← List.map_uncurry_zip_eq_zipWith] at member
  obtain ⟨⟨name, types⟩, pair, rfl⟩ := List.mem_map.mp member
  obtain ⟨named, listed⟩ := List.of_mem_zip pair
  obtain ⟨plain, known, inPath, _⟩ := restricted types listed
  refine ⟨?_, plain, known, inPath, ?_, ?_, OperationTypes.isPlain_resultType plain⟩
  · refine verbs.isPlain_of_mem_uniques worded ?_ named
    intro base based
    obtain ⟨other, inside, rfl⟩ := List.mem_map.mp based
    exact ⟨other.method, (restricted other inside).2.1, other.path, rfl⟩
  · intro type present
    obtain ⟨_, _, rfl⟩ := Option.map_eq_some_iff.mp present
    exact OperationTypes.isPlain_aliasName plain .params
  · intro type present
    obtain ⟨_, _, rfl⟩ := Option.map_eq_some_iff.mp present
    exact OperationTypes.isPlain_aliasName plain .body

theorem length_wrappersOf (verbs : VerbPrefixes) (operations : List OperationTypes) :
    (wrappersOf verbs operations).length = operations.length := by
  simp [wrappersOf]

theorem map_found_wrappersOf (verbs : VerbPrefixes) (operations : List OperationTypes) :
    (wrappersOf verbs operations).map Wrapper.found =
      List.zipWith (fun wrapper types => types.foundAs wrapper.name)
        (wrappersOf verbs operations) operations := by
  unfold wrappersOf
  generalize uniques runtimeNames
    (operations.map fun types => verbs.wrapperName types.method types.path) = names
  induction operations generalizing names with
  | nil => simp
  | cons types rest ih =>
    cases names with
    | nil => rfl
    | cons name names =>
      simp only [List.zipWith_cons_cons, List.map_cons, ih]
      rw [types.found_ofTypes]
      rfl

section Content

/-- A line of a module that no wrapper is read off. -/
structure Idle (line : Text) : Prop where
  chars : line.all inIdleLine = true
  start : line.head? ≠ some 'e'
  ending : line.getLast? = some ';'

theorem idle_importLine? {names : List Text} {source line : Text} {typeOnly : Bool}
    (named : ∀ name ∈ names, name.all inIdleLine = true) (quiet : source.all inIdleLine = true)
    (present : Module.importLine? names source typeOnly = some line) : Idle line := by
  unfold Module.importLine? at present
  split at present
  · contradiction
  · rename_i name more sorted
    have listed : (join ", " (name :: more)).all inIdleLine = true := by
      refine all_join (by decide) fun other member => named other ?_
      rw [← sorted] at member
      exact Table.mem_sorted.mp member
    cases present
    constructor
    · simp only [List.all_append, listed, quiet]
      cases typeOnly <;> decide
    · cases typeOnly <;> exact (by decide : some 'i' ≠ some 'e')
    · rw [List.getLast?_append]
      rfl

theorem findFrom_idle {lines : List Text} (filled : lines ≠ []) (idle : ∀ line ∈ lines, Idle line)
    (rest : Text) : findFrom true (join "\n" lines ++ '\n' :: rest) = findFrom true rest := by
  induction lines with
  | nil => exact absurd rfl filled
  | cons first more ih =>
    have here := idle first List.mem_cons_self
    cases more with
    | nil =>
      rw [join_singleton]
      exact findFrom_line first here.chars here.start rest
    | cons second more =>
      rw [join_cons_cons, List.append_assoc, List.append_assoc]
      exact (findFrom_line first here.chars here.start _).trans
        (ih (List.cons_ne_nil _ _) fun line member => idle line (List.mem_cons_of_mem _ member))

theorem getLast?_join {lines : List Text} (filled : lines ≠ [])
    (ending : ∀ line ∈ lines, line.getLast? = some ';') :
    (join "\n" lines).getLast? = some ';' := by
  induction lines with
  | nil => exact absurd rfl filled
  | cons first more ih =>
    cases more with
    | nil =>
      rw [join_singleton]
      exact ending first List.mem_cons_self
    | cons second more =>
      rw [join_cons_cons, List.getLast?_append, List.getLast?_append,
        ih (List.cons_ne_nil _ _) fun line member => ending line (List.mem_cons_of_mem _ member)]
      rfl

theorem assemble_eq {sections : List Text} (closed : ∀ body ∈ sections, body.getLast? = some ';') :
    Module.assemble sections =
      Module.header ++ '\n' :: sections.flatMap fun body => '\n' :: body ++ ['\n'] := by
  have trimmed : sections.map trimEnd = sections := by
    refine (List.map_congr_left fun body member => ?_).trans (List.map_id sections)
    exact trimEnd_of_stop (by rw [closed body member]; decide)
  have kept : sections.filter (· ≠ []) = sections := by
    apply List.filter_eq_self.mpr
    intro body member
    have last := closed body member
    cases body with
    | nil => contradiction
    | cons => rfl
  rw [Module.assemble, trimmed, kept, List.append_assoc]
  rfl

theorem idle_importsOf {endpoints : List Endpoint} {wrappers : List Wrapper}
    (endpointNames : ∀ endpoint ∈ endpoints, endpoint.Tame)
    (plain : ∀ wrapper ∈ wrappers, wrapper.Plain) :
    ∃ lines, lines ≠ [] ∧ (∀ line ∈ lines, Idle line) ∧
      importsOf ImportPaths.standard endpoints wrappers = join "\n" lines := by
  have capital : ∀ name : Text, name.all isCapital = true → name.all inIdleLine = true :=
    fun name all => all_of_isBare (by decide) (all_imp isBare_of_isCapital all)
  have plainName : ∀ name : Text, isPlain name = true → name.all inIdleLine = true :=
    fun name => all_of_isPlain (by decide)
  refine ⟨_, ?_, ?_, rfl⟩
  · obtain ⟨line, first⟩ := Option.isSome_iff_exists.mp (show (Module.importLine? runtimeNames
      ImportPaths.standard.runtime false).isSome = true by decide)
    rw [first]
    simp
  · intro line member
    simp only [List.mem_filterMap, List.mem_cons, List.not_mem_nil, or_false, id] at member
    obtain ⟨source, rfl | rfl | rfl, found⟩ := member
    · exact idle_importLine? (by decide) (by decide) found
    · refine idle_importLine? ?_ (by decide) found
      intro name named
      obtain ⟨endpoint, inside, rfl⟩ := List.mem_map.mp named
      exact capital _ (endpointNames endpoint inside).name
    · refine idle_importLine? ?_ (by decide) found
      intro name named
      obtain ⟨wrapper, inside, typed⟩ := List.mem_flatMap.mp named
      refine plainName name ?_
      simp only [Wrapper.typeNames, List.mem_append, Option.mem_toList] at typed
      rcases typed with (params | body) | result
      · exact (plain wrapper inside).params name params
      · exact (plain wrapper inside).body name body
      · split at result
        · contradiction
        · rw [List.mem_singleton.mp result]
          exact (plain wrapper inside).result

/-- A module of import lines and blocks is read block by block. -/
theorem findAll_assemble {ι : Type} {lines : List Text} {items : List ι} {text : ι → Text}
    {found : ι → FoundWrapper} (filled : lines ≠ []) (idle : ∀ line ∈ lines, Idle line)
    (closed : ∀ item ∈ items, (text item).getLast? = some ';')
    (reads : ∀ item ∈ items, ∀ rest,
      findFrom true (text item ++ rest) = found item :: findFrom false rest) :
    findAll (Module.assemble (join "\n" lines :: items.map text)) = items.map found := by
  have ends : ∀ body ∈ join "\n" lines :: items.map text, body.getLast? = some ';' := by
    intro body member
    rcases List.mem_cons.mp member with rfl | block
    · exact getLast?_join filled fun line listed => (idle line listed).ending
    · obtain ⟨item, listed, rfl⟩ := List.mem_map.mp block
      exact closed item listed
  have blocks := findFrom_blocks reads
  rw [findAll, assemble_eq ends, List.flatMap_cons, List.flatMap_map,
    findFrom_line Module.header (by decide) (by decide)]
  calc findFrom true ('\n' :: join "\n" lines ++ ['\n'] ++
        items.flatMap fun item => '\n' :: text item ++ ['\n'])
      = findFrom true ([] ++ '\n' :: (join "\n" lines ++
          '\n' :: items.flatMap fun item => '\n' :: text item ++ ['\n'])) := by simp
    _ = findFrom true (join "\n" lines ++
          '\n' :: items.flatMap fun item => '\n' :: text item ++ ['\n']) :=
        findFrom_line [] rfl (by simp) _
    _ = findFrom true (items.flatMap fun item => '\n' :: text item ++ ['\n']) :=
        findFrom_idle filled idle _
    _ = items.map found := blocks

end Content

/-- The standard options with verbs of one's own. -/
def configOf (verbs : VerbPrefixes) : Config := { Config.standard with verbs }

theorem unknown?_configOf (verbs : VerbPrefixes) : (configOf verbs).templates.unknown? = none :=
  (by decide +kernel : DocTemplates.standard.unknown? = none)

/-- Every operation finds its endpoint, so the module is always generated. -/
theorem generate_planned (server tag : Text) (verbs : VerbPrefixes) (filled : operations ≠ []) :
    ∃ endpoints, endpoints.length = operations.length ∧ endpoints ⊆ Endpoint.plan operations ∧
      generate server tag operations (Endpoint.plan operations) (configOf verbs) =
        .ok ⟨Module.assemble (importsOf ImportPaths.standard endpoints
          (wrappersOf verbs operations) ::
            ((wrappersOf verbs operations).zip (operations.zip endpoints)).map
              fun (wrapper, types, endpoint) =>
                wrapper.render types.parameters endpoint DocTemplates.standard.wrapper),
          wrappersOf verbs operations⟩ := by
  obtain ⟨endpoints, mapped, length, planned⟩ :=
    mapM_endpointFor server tag operations fun types listed => Endpoint.find?_plan listed
  refine ⟨endpoints, length, planned, ?_⟩
  unfold generate
  rw [unknown?_configOf]
  simp only [filled, if_false, mapped]
  rfl

/-- Reading the module of a tag gives its wrappers, as they were written. -/
theorem findAll_wrappersOf (server tag : Text) (worded : verbs.Worded)
    (restricted : Restricted operations) :
    ∃ content, generate server tag operations (Endpoint.plan operations) (configOf verbs) =
        .ok ⟨content, wrappersOf verbs operations⟩ ∧
      FoundWrapper.findAll content = (wrappersOf verbs operations).map Wrapper.found := by
  by_cases filled : operations = []
  · subst filled
    have empty : findAll Module.empty = [] := by decide +kernel
    refine ⟨Module.empty, ?_, empty⟩
    unfold generate
    rw [unknown?_configOf]
    rfl
  obtain ⟨endpoints, length, planned, generated⟩ := generate_planned server tag verbs filled
  have inPath : ∀ types ∈ operations, types.path.all isPathChar = true :=
    fun types listed => (restricted types listed).2.2.1
  have tame : ∀ endpoint ∈ endpoints, endpoint.Tame := fun endpoint member =>
    Endpoint.tame_of_mem_plan inPath (planned member)
  have plain : ∀ wrapper ∈ wrappersOf verbs operations, wrapper.Plain :=
    fun wrapper => plain_of_mem_wrappersOf worded restricted
  obtain ⟨lines, present, idle, imports⟩ := idle_importsOf tame plain
  have paired : ((wrappersOf verbs operations).zip (operations.zip endpoints)).map (·.1) =
      wrappersOf verbs operations :=
    List.map_fst_zip (by simp [length_wrappersOf, length])
  refine ⟨_, generated, ?_⟩
  have reads : ∀ item ∈ (wrappersOf verbs operations).zip (operations.zip endpoints), ∀ rest,
      findFrom true (item.1.render item.2.1.parameters item.2.2 DocTemplates.standard.wrapper ++
        rest) = item.1.found :: findFrom false rest := by
    rintro ⟨wrapper, types, endpoint⟩ member rest
    obtain ⟨first, second⟩ := List.of_mem_zip member
    obtain ⟨listed, third⟩ := List.of_mem_zip second
    refine Wrapper.findFrom_render (plain wrapper first) (tame endpoint third) ?_ rest
    intro parameter inside
    exact all_imp (fun _ => isPathChar_of_isParameterChar)
      ((restricted types listed).2.2.2 parameter inside)
  rw [imports]
  calc findAll (Module.assemble (join "\n" lines :: _))
      = ((wrappersOf verbs operations).zip (operations.zip endpoints)).map (·.1.found) :=
        findAll_assemble present idle
          (fun item _ => item.1.getLast?_render item.2.1.parameters item.2.2 _) reads
    _ = (((wrappersOf verbs operations).zip (operations.zip endpoints)).map (·.1)).map
          Wrapper.found := by
        rw [List.map_map]
        rfl
    _ = (wrappersOf verbs operations).map Wrapper.found := by rw [paired]

/-- Reading the module of a tag gives one wrapper for each operation, in order. -/
theorem findAll_generate (server tag : Text) (operations : List OperationTypes)
    (verbs : VerbPrefixes) (worded : verbs.Worded) (restricted : Restricted operations) :
    ∃ api, generate server tag operations (Endpoint.plan operations) (configOf verbs) = .ok api ∧
      api.wrappers.length = operations.length ∧
      FoundWrapper.findAll api.content =
        List.zipWith (fun wrapper types => types.foundAs wrapper.name) api.wrappers operations := by
  obtain ⟨content, generated, read⟩ := findAll_wrappersOf server tag worded restricted
  exact ⟨_, generated, length_wrappersOf verbs operations,
    read.trans (map_found_wrappersOf verbs operations)⟩

/-- Two operations whose wrappers would have the same name. -/
def leagueOperations : List OperationTypes :=
  [⟨"readLeague", .get, "/leagues/{id}", [⟨"id", "string", false, .path⟩,
      ⟨"http.get", "string", true, .query⟩, ⟨"x-trace", "string", false, .header⟩],
      some (.inline "\x7b id: string \x7d"), none, .schema "League", some (.schema "League"), none⟩,
    ⟨"probe", .get, "/leagues/id", [], none, some (.schema "League"), .void, none, none⟩]

theorem findAll_generate_leagues :
    VerbPrefixes.standard.Worded ∧ Restricted leagueOperations ∧
    ∃ api, generate "main" "leagues" leagueOperations (Endpoint.plan leagueOperations)
        (configOf .standard) = .ok api ∧
      FoundWrapper.findAll api.content =
        [⟨"fetchLeaguesId", some "readLeague", some .get,
            [⟨"params", some "readLeague_Params"⟩], some "readLeague_RO"⟩,
          ⟨"fetchLeaguesId2", some "probe", some .get,
            [⟨"body", some "probe_Body"⟩], some "void"⟩] := by
  have worded : VerbPrefixes.standard.Worded := by decide
  have restricted : Restricted leagueOperations := by decide
  obtain ⟨api, generated, _, read⟩ :=
    findAll_generate "main" "leagues" leagueOperations .standard worded restricted
  have written : (generate "main" "leagues" leagueOperations (Endpoint.plan leagueOperations)
      (configOf .standard)).toOption.map (·.wrappers) =
        some (wrappersOf .standard leagueOperations) := by decide +kernel
  rw [generated] at written
  have wrappers : api.wrappers = wrappersOf .standard leagueOperations := Option.some.inj written
  refine ⟨worded, restricted, api, generated, ?_⟩
  rw [read, wrappers]
  decide +kernel

end DomainApi

end TypedClient
