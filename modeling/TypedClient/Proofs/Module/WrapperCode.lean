import TypedClient.Module.Wrappers
import TypedClient.Proofs.Text.Characters

/-!
The statements of a wrapper as a small piece of code: which names it uses and binds, and how it is
written. Main statement: the statements of a wrapper are the text of its code.
-/

namespace TypedClient

open Text Name

/-- A name in the statements of a wrapper. -/
inductive Variable
  /-- Bound by the wrapper itself. -/
  | own (name : Text)
  /-- Imported by the module, or built in. -/
  | outer (name : Text)
  deriving DecidableEq, Repr

def Variable.text : Variable → Text
  | own name => name
  | outer name => name

/-- An expression in the statements of a wrapper. -/
inductive Expression
  | name (which : Variable)
  /-- An entry of an object under a key. -/
  | entry (key : Text) (value : Expression)
  | object (entries : List Expression)
  /-- A call of a function, with what stands between its name and its arguments. -/
  | call (function detail : Text) (arguments : List Expression)

namespace Expression

mutual
def text : Expression → Text
  | name which => which.text
  | entry key value => key ++ ": " ++ value.text
  | object entries => Wrapper.inBracesList (texts entries)
  | call function detail arguments =>
    function ++ detail ++ "(" ++ join ", " (texts arguments) ++ ")"

def texts : List Expression → List Text
  | [] => []
  | first :: rest => first.text :: texts rest
end

mutual
/-- The names that an expression uses; a key is none. -/
def used : Expression → List Variable
  | name which => [which]
  | entry _ value => value.used
  | object entries => usedIn entries
  | call function _ arguments => .outer function :: usedIn arguments

def usedIn : List Expression → List Variable
  | [] => []
  | first :: rest => first.used ++ usedIn rest
end

theorem texts_eq_map (expressions : List Expression) :
    texts expressions = expressions.map text := by
  induction expressions with
  | nil => rfl
  | cons first rest ih => rw [texts, List.map_cons, ih]

theorem used_name {which : Variable} {known : List Variable} (here : which ∈ known) :
    (name which).used ⊆ known :=
  List.cons_subset.mpr ⟨here, List.nil_subset known⟩

theorem usedIn_subset {known : List Variable} {expressions : List Expression}
    (each : ∀ expression ∈ expressions, expression.used ⊆ known) :
    usedIn expressions ⊆ known := by
  induction expressions with
  | nil => exact List.nil_subset known
  | cons first rest ih =>
    exact List.append_subset.mpr ⟨each first List.mem_cons_self,
      ih fun expression member => each expression (List.mem_cons_of_mem _ member)⟩

end Expression

inductive Statement
  /-- Takes properties out of an object, and perhaps binds what is left of it. -/
  | take (bindings : List Binding) (rest : Option Text) (object : Variable)
  | result (value : Expression)

namespace Statement

def text : Statement → Text
  | take bindings rest object =>
    "const " ++ Wrapper.inBracesList
      (bindings.map Binding.render ++ (rest.map ("...".toList ++ ·)).toList) ++ " = " ++
      object.text ++ ";"
  | result value => "return " ++ value.text ++ ";"

theorem text_take (bindings : List Binding) (rest : Option Text) (object : Variable) :
    (take bindings rest object).text =
      "const " ++ Wrapper.inBracesList
        (bindings.map Binding.render ++ (rest.map ("...".toList ++ ·)).toList) ++ " = " ++
        object.text ++ ";" :=
  rfl

theorem text_result (value : Expression) :
    (result value).text = "return " ++ value.text ++ ";" :=
  rfl

def used : Statement → List Variable
  | take _ _ object => [object]
  | result value => value.used

def bound : Statement → List Variable
  | take bindings rest _ => bindings.map (.own ·.name) ++ (rest.map .own).toList
  | result _ => []

end Statement

namespace Endpoint

def callCode (endpoint : Endpoint) (arguments : List Text) : Expression :=
  if endpoint.isDynamic then
    .call endpoint.name [] (arguments.map fun argument => .name (.own argument))
  else .name (.outer endpoint.name)

theorem text_callCode (endpoint : Endpoint) (arguments : List Text) :
    (endpoint.callCode arguments).text = endpoint.call arguments := by
  unfold callCode call
  split
  · have each : (arguments.map fun argument => Expression.name (.own argument)).map
        Expression.text = arguments := by
      simp [Expression.text, Variable.text, Function.comp_def]
    rw [Expression.text, Expression.texts_eq_map, each, List.append_nil]
  · rfl

end Endpoint

namespace Wrapper

variable (wrapper : Wrapper) (request : Request) (endpoint : Endpoint)

section Code

def queryCode? : Option Expression :=
  if wrapper.paramsType.isSome ∧ request.hasQuery then
    some (if request.bindings = [] then .name (.own "params")
      else .entry "params" (.name (.own "query")))
  else none

def headerCode (binding : Binding) : Expression :=
  .entry (propertyKey binding.key) (.name (.own binding.name))

def headersCode? : Option Expression :=
  if request.headers = [] then none
  else some (.entry "headers" (.object (request.headers.map headerCode)))

def dataCode? : Option Expression :=
  if wrapper.bodyType.isSome ∧ !sendsBody wrapper.method then
    some (.entry "data" (.name (.own "body")))
  else none

def optionsCode? : Option Expression :=
  match [wrapper.queryCode? request, headersCode? request, wrapper.dataCode?].filterMap id with
  | [] => none
  | entries => some (.object entries)

def bodyCode? : Option Expression :=
  if !sendsBody wrapper.method then none
  else if wrapper.bodyType.isSome then some (.name (.own "body"))
  else if (wrapper.optionsCode? request).isSome then some (.name (.outer "undefined"))
  else none

def requestArguments : List Expression :=
  endpoint.callCode (request.pathArguments.map (·.name)) ::
    ((wrapper.bodyCode? request).toList ++ (wrapper.optionsCode? request).toList)

/-- The request: a call of the client with the method's name. -/
def requestCode : Expression :=
  .call "http" ("." ++ wrapper.method.lowerName) (wrapper.requestArguments request endpoint)

def taken? : Option Statement :=
  if wrapper.paramsType.isSome ∧ request.bindings ≠ [] then
    some (.take request.bindings (if request.hasQuery then some "query" else none) (.own "params"))
  else none

/-- The statements of a wrapper as code. -/
def code : List Statement :=
  (wrapper.taken? request).toList ++
    [.result (.call "handleResponse" ("<" ++ wrapper.resultType ++ ">")
      [wrapper.requestCode request endpoint])]

end Code

section Text

theorem text_queryCode? :
    (wrapper.queryCode? request).map Expression.text = wrapper.queryEntry? request := by
  unfold queryCode? queryEntry?
  split
  · split <;> rfl
  · rfl

theorem text_headersCode? : (headersCode? request).map Expression.text = headersEntry? request := by
  have each : (request.headers.map headerCode).map Expression.text =
      request.headers.map headerEntry := by
    simp [headerCode, headerEntry, Expression.text, Variable.text, Function.comp_def]
  unfold headersCode? headersEntry?
  split
  · rfl
  · rw [Option.map_some, Expression.text, Expression.text, Expression.texts_eq_map, each]
    rfl

theorem text_dataCode? : wrapper.dataCode?.map Expression.text = wrapper.dataEntry? := by
  unfold dataCode? dataEntry?
  split <;> rfl

theorem text_optionsCode? :
    (wrapper.optionsCode? request).map Expression.text = wrapper.options? request := by
  have entries : [wrapper.queryEntry? request, headersEntry? request, wrapper.dataEntry?].filterMap
      id = ([wrapper.queryCode? request, headersCode? request, wrapper.dataCode?].filterMap id).map
        Expression.text := by
    rw [← text_queryCode?, ← text_headersCode?, ← text_dataCode?, List.map_filterMap]
    rfl
  unfold optionsCode? options?
  rw [entries]
  cases [wrapper.queryCode? request, headersCode? request, wrapper.dataCode?].filterMap id with
  | nil => rfl
  | cons first rest =>
    rw [Option.map_some, Expression.text, Expression.texts_eq_map]
    rfl

theorem text_bodyCode? :
    (wrapper.bodyCode? request).map Expression.text = wrapper.bodyArgument? request := by
  unfold bodyCode? bodyArgument?
  rw [← text_optionsCode?, Option.isSome_map]
  split
  · rfl
  · split
    · rfl
    · split <;> rfl

theorem texts_requestArguments :
    Expression.texts (wrapper.requestArguments request endpoint) =
      wrapper.callArguments request endpoint := by
  rw [Expression.texts_eq_map, requestArguments, callArguments, List.map_cons, List.map_append,
    Endpoint.text_callCode, ← text_bodyCode?, ← text_optionsCode?]
  cases wrapper.bodyCode? request <;> cases wrapper.optionsCode? request <;> rfl

theorem text_taken? :
    (wrapper.taken? request).map Statement.text = wrapper.destructuring? request := by
  have ending : " = params;".toList = " = ".toList ++ ("params".toList ++ ";".toList) := by decide
  have rest : "...query".toList = "...".toList ++ "query".toList := by decide
  unfold taken? destructuring?
  split
  · rw [ending, rest, Option.map_some, Statement.text_take]
    simp only [List.append_assoc]
    cases request.hasQuery <;> rfl
  · rfl

theorem text_returned : Statement.text (.result (.call "handleResponse"
      ("<" ++ wrapper.resultType ++ ">") [wrapper.requestCode request endpoint])) =
    wrapper.returnStatement request endpoint := by
  have opening : "return handleResponse<".toList =
      "return ".toList ++ ("handleResponse".toList ++ "<".toList) := by decide
  have client : ">(http.".toList =
      ">".toList ++ ("(".toList ++ ("http".toList ++ ".".toList)) := by decide
  have ending : "));".toList = ")".toList ++ (")".toList ++ ";".toList) := by decide
  unfold returnStatement
  rw [opening, client, ending, ← texts_requestArguments]
  simp only [Statement.text_result, Expression.text, Expression.texts, join_singleton, requestCode,
    List.append_assoc]

/-- The statements of a wrapper are the text of its code. -/
theorem statements_eq : wrapper.statements request endpoint =
    (wrapper.code request endpoint).map Statement.text := by
  rw [statements, code, List.map_append, List.map_singleton, text_returned, ← text_taken?]
  cases wrapper.taken? request <;> rfl

end Text

end Wrapper

end TypedClient
