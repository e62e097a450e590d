import TypedClient.Proofs.Module.Declarations
import TypedClient.Proofs.Module.TypeImports

/-!
The call of its wrapper in a hook. Main statement: whatever types a hook was given, it binds every
variable that it passes, and it passes a variable for each of at most two arguments in their order: the
body for an argument named `body` and the parameters for the other.
-/

namespace TypedClient

open Text

namespace FoundWrapper

variable {wrapper : FoundWrapper}

/-- The slot that the name of an argument speaks for. -/
def slotOf (argument : Argument) : Slot := if isBodyArgument argument then .body else .params

theorem slots_nil (listed : wrapper.arguments = []) : wrapper.slots = [] := by
  rw [slots, slots?, listed]
  rfl

theorem slots_single {only : Argument} (listed : wrapper.arguments = [only]) :
    wrapper.slots = [slotOf only] := by
  rw [slots, slots?, listed]
  rfl

theorem slots_pair {first second : Argument} (listed : wrapper.arguments = [first, second]) :
    wrapper.slots =
      if slotOf first = .body ∧ slotOf second = .params then [.body, .params]
      else [.params, .body] := by
  have taken : wrapper.slots? =
      if isBodyArgument first && !isBodyArgument second then
        some [(.body, first), (.params, second)]
      else some [(.params, first), (.body, second)] := by
    rw [slots?, listed]
  rw [slots, taken]
  unfold slotOf
  cases isBodyArgument first <;> cases isBodyArgument second <;> rfl

theorem slots_several {first second third : Argument} {rest : List Argument}
    (listed : wrapper.arguments = first :: second :: third :: rest) : wrapper.slots = [] := by
  rw [slots, slots?, listed]
  rfl

theorem length_le_of_nodup {slots : List Slot} (distinct : slots.Nodup) : slots.length ≤ 2 := by
  match slots with
  | [] | [_] | [_, _] => simp
  | first :: second :: third :: rest =>
    -- three entries would share two slots
    cases first <;> cases second <;> cases third <;> simp at distinct

/-- Where the names speak for different slots, every argument takes its own. -/
theorem slots_of_nodup (distinct : (wrapper.arguments.map slotOf).Nodup) :
    wrapper.slots = wrapper.arguments.map slotOf := by
  have few := length_le_of_nodup distinct
  match listed : wrapper.arguments with
  | [] => exact slots_nil listed
  | [only] => exact slots_single listed
  | [first, second] =>
    rw [slots_pair listed]
    rw [listed] at distinct
    cases front : slotOf first <;> cases back : slotOf second <;> simp_all
  | first :: second :: third :: rest =>
    rw [listed] at few
    exact absurd few (by simp)

/-- Two arguments that are not the body are taken as the parameters and the body. -/
theorem slots_of_others (others : wrapper.arguments.map slotOf = [.params, .params]) :
    wrapper.slots = [.params, .body] := by
  match listed : wrapper.arguments with
  | [first, second] =>
    rw [listed] at others
    have front : slotOf first = .params := (List.cons.inj others).1
    rw [slots_pair listed, front]
    rfl
  | [] | [_] | _ :: _ :: _ :: _ =>
    rw [listed] at others
    simp at others

theorem length_slots (few : wrapper.arguments.length ≤ 2) :
    wrapper.slots.length = wrapper.arguments.length := by
  match listed : wrapper.arguments with
  | [] => rw [slots_nil listed, List.length_nil, List.length_nil]
  | [only] => rw [slots_single listed, List.length_singleton, List.length_singleton]
  | [first, second] =>
    rw [slots_pair listed]
    split <;> rfl
  | first :: second :: third :: rest =>
    rw [listed] at few
    exact absurd few (by simp)

/-- A wrapper takes each slot at most once. -/
theorem slots_cases (wrapper : FoundWrapper) :
    wrapper.slots = [] ∨ wrapper.slots = [.params] ∨ wrapper.slots = [.body] ∨
      wrapper.slots = [.params, .body] ∨ wrapper.slots = [.body, .params] := by
  match listed : wrapper.arguments with
  | [] => exact .inl (slots_nil listed)
  | [only] =>
    rw [slots_single listed]
    cases slotOf only with
    | params => exact .inr (.inl rfl)
    | body => exact .inr (.inr (.inl rfl))
  | [first, second] =>
    rw [slots_pair listed]
    split
    · exact .inr (.inr (.inr (.inr rfl)))
    · exact .inr (.inr (.inr (.inl rfl)))
  | first :: second :: third :: rest => exact .inl (slots_several listed)

end FoundWrapper

namespace Hook

/-- The variables that a hook binds, with their types. -/
def bound (hook : Hook) : List (Slot × Text) :=
  (hook.types.params.map (Slot.params, ·)).toList ++ (hook.types.body.map (Slot.body, ·)).toList

/-- The parameters of a function: one by itself, two as the fields of an object. -/
def parameterList : List Slot → Text
  | [] => "()"
  | [only] => "(" ++ only.variable ++ ")"
  | several => "(\x7b " ++ join ", " (several.map Slot.variable) ++ " \x7d)"

/-- The call of a function with these variables. -/
def callWith (function : Text) (passed : List Slot) : Text :=
  function ++ "(" ++ join ", " (passed.map Slot.variable) ++ ")"

/-- The code of a hook. -/
def render (config : Config) (hook : Hook) : Text :=
  if hook.isQuery then hook.renderQuery config.templates.queryHook
  else hook.renderMutation config.templates.mutationHook config.notifications

/-- The parameter that a query hook takes behind its variables. -/
def optionsParameter (result : Text) : Text :=
  "options?: Omit<UseQueryOptions<" ++ result ++ ">, 'queryKey' | 'queryFn'>"

/-- The code of a hook is a function that binds these variables and calls its wrapper with those: a
query binds its own parameters, a mutation those of the function that it is made with. -/
structure Passes (hook : Hook) (config : Config) (bound : List (Slot × Text)) (passed : List Slot) :
    Prop where
  query : hook.isQuery = true → hook.render config =
    hook.doc config.templates.queryHook ++ "\nexport const " ++ hook.name ++ " = (" ++
      join ", " (bound.map (fun entry => typedArgument entry.1.variable entry.2) ++
        [optionsParameter hook.types.result]) ++
      ") =>\n  useQuery<" ++ hook.types.result ++ ">(\x7b\n    queryKey: [" ++
      join ", " hook.queryKey ++ "],\n    queryFn: () => " ++
      callWith hook.wrapper.name passed ++ ",\n    ...options,\n  \x7d);"
  mutation : hook.isQuery = false → ∃ more, hook.render config =
    hook.doc config.templates.mutationHook ++ "\nexport const " ++ hook.name ++
      " = () =>\n  useMutation<" ++ hook.types.result ++ ", Error, " ++ hook.variablesType ++
      ">(\x7b\n    mutationFn: " ++ parameterList (bound.map (·.1)) ++ " => " ++
      callWith hook.wrapper.name passed ++ "," ++ more ++ "\n  \x7d);"

variable {hook : Hook} {config : Config} {types : HookTypes}

theorem call_eq (hook : Hook) : hook.call = callWith hook.wrapper.name hook.wrapper.slots := rfl

theorem queryArguments_eq (hook : Hook) :
    hook.queryArguments =
      hook.bound.map (fun entry => typedArgument entry.1.variable entry.2) ++
        [optionsParameter hook.types.result] := by
  unfold queryArguments bound
  cases hook.types.params <;> cases hook.types.body <;> rfl

theorem slots_bound (fitted : hook.types = types.fit hook.wrapper) (slot : Slot) :
    slot ∈ hook.bound.map (·.1) ↔ slot ∈ hook.wrapper.slots := by
  rw [bound, fitted, HookTypes.fit, HookTypes.fitSlot, HookTypes.fitSlot]
  by_cases params : Slot.params ∈ hook.wrapper.slots <;>
    by_cases body : Slot.body ∈ hook.wrapper.slots <;> cases slot <;> simp [params, body]

theorem mutationFunction_eq (fitted : hook.types = types.fit hook.wrapper) :
    hook.mutationFunction =
      parameterList (hook.bound.map (·.1)) ++ " => " ++
        callWith hook.wrapper.name hook.wrapper.slots := by
  rw [mutationFunction, bound, call_eq, fitted, HookTypes.fit, HookTypes.fitSlot,
    HookTypes.fitSlot]
  rcases FoundWrapper.slots_cases hook.wrapper with slots | slots | slots | slots | slots <;>
    rw [slots] <;> simp only [callWith, List.append_assoc] <;> rfl

theorem passes (fitted : hook.types = types.fit hook.wrapper) (config : Config) :
    hook.Passes config hook.bound hook.wrapper.slots where
  query := by
    intro query
    rw [render, if_pos query, renderQuery, queryArguments_eq, call_eq]
  mutation := by
    intro mutation
    let more := hook.onError config.notifications.onError ++ onSuccess config.notifications
    have opening : ">(\x7b\n    mutationFn: ".toList =
        ">(\x7b\n".toList ++ "    mutationFn: ".toList := rfl
    refine ⟨more.flatMap ("\n".toList ++ ·), ?_⟩
    rw [render, mutation, if_neg Bool.false_ne_true, renderMutation, List.cons_append, join_cons,
      mutationFunction_eq fitted, opening]
    simp only [List.append_assoc]
    rfl

theorem getLast?_render (config : Config) (hook : Hook) :
    (hook.render config).getLast? = some ';' := by
  unfold render
  split
  · rw [renderQuery, List.getLast?_append]
    rfl
  · rw [renderMutation, List.getLast?_append]
    rfl

end Hook

namespace HookModules

variable {operations : List OperationTypes} {config : Config} {source : Text} {hook : Hook}
  {modules : Reported HookModules}

/-- The module that a hook belongs to. -/
def moduleOf (modules : HookModules) (hook : Hook) : Text :=
  if hook.isQuery then modules.queries else modules.mutations

theorem block_infix {imports : List (Option Text)} {blocks : List Text} {block : Text}
    (listed : block ∈ blocks) (ending : block.getLast? = some ';') :
    '\n' :: block <:+: assemble imports blocks := by
  rw [assemble, if_neg (List.ne_nil_of_mem listed)]
  apply Module.line_infix_assemble (List.mem_cons_of_mem _ listed) ?_ List.infix_rfl
  rw [ending]
  rfl

/-- Every hook is written in its module. -/
theorem render_infix (made : generate source operations config = .ok modules)
    (planned : hook ∈ hooksFor config operations source) :
    '\n' :: hook.render config <:+: moduleOf modules.value hook := by
  have value : modules.value = madeFrom config operations source := value_of_generate made
  have ending := hook.getLast?_render config
  rw [value, moduleOf]
  unfold Hook.render at ending ⊢
  by_cases query : hook.isQuery = true
  · rw [if_pos query] at ending ⊢
    rw [if_pos query]
    exact block_infix (List.mem_map_of_mem (List.mem_filter.mpr ⟨planned, query⟩)) ending
  · have mutation : (!hook.isQuery) = true := by simpa using query
    rw [if_neg query] at ending ⊢
    rw [if_neg query]
    exact block_infix (List.mem_map_of_mem (List.mem_filter.mpr ⟨planned, mutation⟩)) ending

theorem fitted_of_planned (planned : hook ∈ hooksFor config operations source) :
    ∃ types : HookTypes, hook.types = types.fit hook.wrapper := by
  rw [(HookContext.of_mem_plan planned).2, TypeSource.resolve]
  split
  · exact ⟨_, rfl⟩
  · exact ⟨_, rfl⟩

/-- Hooks and the wrappers that they are made for. A hook is written in its module, and its types fit
its wrapper. With whatever fitting types, the code of the hook binds each variable that it passes. For
up to two arguments it passes one variable for each: under their own names where these speak for
different slots, and the parameters before the body for two arguments neither of which is the body. -/
theorem hooks_call_wrappers (made : generate source operations config = .ok modules)
    (planned : hook ∈ hooksFor config operations source) :
    hook.wrapper ∈ FoundWrapper.findAll source ∧
    '\n' :: hook.render config <:+: moduleOf modules.value hook ∧
    (∃ types : HookTypes, hook.types = types.fit hook.wrapper) ∧
    ∀ types : HookTypes, ∃ bound passed,
      Hook.Passes { hook with types := types.fit hook.wrapper } config bound passed ∧
      (∀ slot ∈ passed, slot ∈ bound.map (·.1)) ∧
      (hook.wrapper.arguments.length ≤ 2 → passed.length = hook.wrapper.arguments.length) ∧
      ((hook.wrapper.arguments.map FoundWrapper.slotOf).Nodup →
        passed = hook.wrapper.arguments.map FoundWrapper.slotOf) ∧
      (hook.wrapper.arguments.map FoundWrapper.slotOf = [.params, .params] →
        passed = [.params, .body]) := by
  refine ⟨(HookContext.of_mem_plan planned).1, render_infix made planned,
    fitted_of_planned planned, fun types => ?_⟩
  let supplied : Hook := { hook with types := types.fit hook.wrapper }
  have fitted : supplied.types = types.fit supplied.wrapper := rfl
  refine ⟨supplied.bound, hook.wrapper.slots, Hook.passes fitted config, ?_,
    FoundWrapper.length_slots, FoundWrapper.slots_of_nodup, ?_⟩
  · intro slot taken
    exact (Hook.slots_bound fitted slot).mpr taken
  · exact FoundWrapper.slots_of_others

/-- The text of a wrapper with these arguments that makes a request with this method. -/
def sourceTaking (name arguments method : Text) : Text :=
  "export const " ++ name ++ " = async (" ++ arguments ++ "): Promise<void> => \x7b\n  return http." ++
    method ++ "('/pages');\n\x7d;\n"

/-- The hook for it, with these types. -/
def hookTaking (name : Text) (arguments : List (Text × Text)) (method : Method)
    (types : HookTypes) : Hook :=
  ⟨"use" ++ Name.pascal name,
    ⟨name, none, some method, arguments.map fun argument => ⟨argument.1, some argument.2⟩,
      some "void".toList⟩,
    method, [], types⟩

def sendUserSource : Text := sourceTaking "sendUser" "body: User, page: number" "post"

def sendUserHook : Hook :=
  hookTaking "sendUser" [("body", "User"), ("page", "number")] .post
    ⟨some "number".toList, some "User".toList, "void"⟩

theorem sendUser_called :
    ∃ modules, generate sendUserSource [] .standard = .ok modules ∧
      sendUserHook ∈ hooksFor .standard [] sendUserSource ∧
      ∃ bound, sendUserHook.Passes .standard bound [.body, .params] ∧
        .body ∈ bound.map (·.1) ∧ .params ∈ bound.map (·.1) := by
  have known : Config.standard.templates.unknown? = none := by decide +kernel
  have planned : sendUserHook ∈ hooksFor .standard [] sendUserSource := by decide +kernel
  obtain ⟨modules, made, _⟩ := generate_known known [] sendUserSource
  obtain ⟨_, _, ⟨types, fitted⟩, calls⟩ := hooks_call_wrappers made planned
  obtain ⟨bound, passed, passes, inside, _, named, _⟩ := calls types
  rw [← fitted] at passes
  have order : passed = [.body, .params] := named (by decide)
  subst order
  exact ⟨modules, made, planned, bound, passes, inside .body (by decide),
    inside .params (by decide)⟩

/-- Two arguments with other names than `body`, and three arguments. -/
def loadPageSource : Text := sourceTaking "loadPage" "page: number, size: number" "get"

def saveScoreSource : Text :=
  sourceTaking "saveScore" "id: string, body: Score, options: Options" "put"

def loadPageHook : Hook :=
  hookTaking "loadPage" [("page", "number"), ("size", "number")] .get
    ⟨some "number".toList, some "number".toList, "void"⟩

def saveScoreHook : Hook :=
  hookTaking "saveScore" [("id", "string"), ("body", "Score"), ("options", "Options")] .put
    ⟨none, none, "unknown"⟩

/-- The second argument of the one gets the body although it has another name, and the arguments of
the other are left out. -/
theorem arguments_not_passed :
    hooksFor .standard [] loadPageSource = [loadPageHook] ∧
    "queryFn: () => loadPage(params, body),".toList <:+:
      (madeFrom .standard [] loadPageSource).queries ∧
    hooksFor .standard [] saveScoreSource = [saveScoreHook] ∧
    "mutationFn: () => saveScore(),".toList <:+:
      (madeFrom .standard [] saveScoreSource).mutations := by
  have page : hooksFor .standard [] loadPageSource = [loadPageHook] := by decide +kernel
  have score : hooksFor .standard [] saveScoreSource = [saveScoreHook] := by decide +kernel
  refine ⟨page, ?_, score, ?_⟩
  · rw [madeFrom, page]
    decide +kernel
  · rw [madeFrom, score]
    decide +kernel

end HookModules

end TypedClient
