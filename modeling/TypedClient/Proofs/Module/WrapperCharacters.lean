import TypedClient.Proofs.Module.RequestPlan
import TypedClient.Proofs.Module.WrapperContents
import TypedClient.Proofs.Module.WrapperReading

/-!
The characters of the statements that a wrapper is written with. Main statement: a bracket that
could open a call stands only in the return statement, and the one call there is the request.
-/

namespace TypedClient

open Text Name FoundWrapper

/-- The characters of paths that names are read off as they stand. -/
def isPathChar (c : Char) : Bool := c.isAlphanum || "/\x7b\x7d_-.".toList.contains c

/-- The characters of parameter names that keys are written of as they stand. -/
def isParameterChar (c : Char) : Bool := c.isAlphanum || "_-.".toList.contains c

/-- Neither opens a call nor ends a line. -/
def isQuiet (c : Char) : Bool := !opensCall c && c != '\n'

section Classes

variable {q : Char → Bool} {c : Char} {text : Text}

theorem isPathChar_imp
    (each : ∀ n < 128, isPathChar (Char.ofNat n) = true → q (Char.ofNat n) = true)
    (here : isPathChar c = true) : q c = true := by
  refine ascii_imp each ?_ here
  simp only [isPathChar, Bool.or_eq_true] at here
  rcases here with word | mark
  · exact ascii_of_isAlphanum word
  · have listed : "/\x7b\x7d_-.".toList.all (fun d => d.toNat < 128) = true := by decide
    simpa using List.all_eq_true.mp listed c (List.contains_iff_mem.mp mark)

theorem isPathChar_of_isParameterChar (here : isParameterChar c = true) : isPathChar c = true := by
  simp only [isParameterChar, Bool.or_eq_true] at here
  rcases here with word | mark
  · simp [isPathChar, word]
  · have listed : "_-.".toList.all isPathChar = true := by decide
    exact List.all_eq_true.mp listed c (List.contains_iff_mem.mp mark)

theorem quiet_of_isBare (bare : text.all isBare = true) : text.all isQuiet = true :=
  all_of_isBare (by decide) bare

theorem quiet_of_isCapital (capital : text.all isCapital = true) : text.all isQuiet = true :=
  quiet_of_isBare (all_imp isBare_of_isCapital capital)

theorem quiet_of_isPlain (plain : isPlain text = true) : text.all isQuiet = true :=
  all_of_isPlain (by decide) plain

theorem no_bracket_of_quiet (quiet : text.all isQuiet = true) :
    text.all (fun c => !opensCall c) = true :=
  all_imp (fun _ here => (Bool.and_eq_true _ _ ▸ here).1) quiet

theorem no_line_end_of_quiet (quiet : text.all isQuiet = true) : '\n' ∉ text := fun member =>
  absurd (List.all_eq_true.mp quiet '\n' member) (by decide)

theorem quiet_of_isPathChar (inPath : text.all isPathChar = true) : text.all isQuiet = true :=
  all_imp (fun _ => isPathChar_imp (by decide)) inPath

theorem all_escape {special : Char → Bool} (mark : q '\\' = true) (all : text.all q = true) :
    (escape special text).all q = true := by
  apply List.all_eq_true.mpr
  intro c member
  obtain ⟨d, inside, here⟩ := List.mem_flatMap.mp member
  have each := List.all_eq_true.mp all d inside
  split at here
  · rcases List.mem_cons.mp here with rfl | same
    · exact mark
    · rwa [List.mem_singleton.mp same]
  · rwa [List.mem_singleton.mp here]

end Classes

/-- The characters that are written around keys and names. -/
def isFixed (c : Char) : Bool := c.isAlphanum || " \x7b\x7d:,.='\\;)".toList.contains c

/-- A class of characters that holds all that are written around keys and names. -/
def Admits (q : Char → Bool) : Prop := ∀ c, isFixed c = true → q c = true

section Admits

variable {q : Char → Bool} {text : Text}

theorem Admits.all (admits : Admits q) (text : Text) (fixed : text.all isFixed = true) :
    text.all q = true :=
  all_imp admits fixed

theorem admits_of_ascii
    (each : ∀ n < 128, isFixed (Char.ofNat n) = true → q (Char.ofNat n) = true) : Admits q := by
  intro c fixed
  refine ascii_imp each ?_ fixed
  simp only [isFixed, Bool.or_eq_true] at fixed
  rcases fixed with word | mark
  · exact ascii_of_isAlphanum word
  · have listed : " \x7b\x7d:,.='\\;)".toList.all (fun d => d.toNat < 128) = true := by decide
    simpa using List.all_eq_true.mp listed c (List.contains_iff_mem.mp mark)

theorem admits_isQuiet : Admits isQuiet := admits_of_ascii (by decide)

theorem admits_inLine : Admits (· != '\n') := admits_of_ascii (by decide)

theorem all_propertyKey (admits : Admits q) (all : text.all q = true) :
    (propertyKey text).all q = true := by
  unfold propertyKey
  split
  · exact all
  · rw [List.cons_append, List.all_cons, List.all_append, all_escape (admits '\\' rfl) all,
      admits '\'' rfl]
    exact admits.all ['\''] rfl

end Admits

/-- A binding whose key and name stand in no way of a reader. -/
structure Binding.Tame (binding : Binding) : Prop where
  key : binding.key.all isPathChar = true
  name : binding.name.all isBare = true

/-- A binding whose key and name are written in a class of characters. -/
structure Binding.Within (q : Char → Bool) (binding : Binding) : Prop where
  key : binding.key.all q = true
  name : binding.name.all q = true

namespace Binding

variable {binding : Binding} {q : Char → Bool}

theorem Tame.quiet (tame : binding.Tame) : binding.Within isQuiet :=
  ⟨quiet_of_isPathChar tame.key, quiet_of_isBare tame.name⟩

theorem Within.imp {r : Char → Bool} (within : binding.Within q)
    (each : ∀ c, q c = true → r c = true) :
    binding.Within r :=
  ⟨all_imp each within.key, all_imp each within.name⟩

/-- A binding that opens no call breaks no line. -/
theorem Tame.inLine (tame : binding.Tame) : binding.Within (· != '\n') :=
  tame.quiet.imp fun _ quiet => (Bool.and_eq_true _ _ ▸ quiet).2

theorem Within.pair (within : binding.Within q) (admits : Admits q) :
    (propertyKey binding.key ++ ": " ++ binding.name).all q = true := by
  rw [List.all_append, List.all_append, all_propertyKey admits within.key, within.name,
    admits.all ": " rfl]
  rfl

theorem Within.render (within : binding.Within q) (admits : Admits q) :
    binding.render.all q = true := by
  unfold Binding.render
  split
  · exact within.name
  · exact within.pair admits

end Binding

/-- An endpoint whose name and placeholders stand in no way of a reader. -/
structure Endpoint.Tame (endpoint : Endpoint) : Prop where
  name : endpoint.name.all isCapital = true
  placeholders : ∀ placeholder ∈ endpoint.placeholders, placeholder.1.all isPathChar = true

namespace Request

variable {parameters : List Parameter} {endpoint : Endpoint}

theorem tame_of_mem_plan (tame : endpoint.Tame)
    (named : ∀ parameter ∈ parameters, parameter.name.all isPathChar = true) :
    ∀ binding ∈ (plan parameters endpoint).bindings, binding.Tame := by
  intro binding member
  refine ⟨?_, bare_of_mem_plan member⟩
  have listed := key_of_mem_plan member
  simp only [keysOf, List.mem_append] at listed
  rcases listed with (placeholder | unused) | header
  · obtain ⟨pair, inside, same⟩ := List.mem_map.mp placeholder
    exact same ▸ tame.placeholders pair inside
  · obtain ⟨parameter, inside, same, _⟩ := mem_namesAt.mp (List.mem_filter.mp unused).1
    exact same ▸ named parameter inside
  · obtain ⟨parameter, inside, same, _⟩ := mem_namesAt.mp header
    exact same ▸ named parameter inside

end Request

namespace Wrapper

variable {wrapper : Wrapper} {request : Request} {endpoint : Endpoint}

theorem returnStatement_append (rest : Text) :
    wrapper.returnStatement request endpoint ++ rest =
      "return handleResponse<".toList ++ (wrapper.resultType ++ (">(http.".toList ++
        (wrapper.method.lowerName ++ ("(".toList ++
          (join ", " (wrapper.callArguments request endpoint) ++ ("));".toList ++ rest)))))) := by
  unfold returnStatement
  simp only [List.append_assoc]

section Class

variable {q : Char → Bool} (admits : Admits q)

include admits

theorem all_inBracesList {entries : List Text} (each : ∀ entry ∈ entries, entry.all q = true) :
    (inBracesList entries).all q = true := by
  rw [inBracesList, List.all_append, List.all_append, all_join (admits.all _ rfl) each,
    admits.all "\x7b " rfl, admits.all " \x7d" rfl]
  rfl

variable (within : ∀ binding ∈ request.bindings, binding.Within q)

include within

theorem all_destructuring? :
    ∀ statement ∈ wrapper.destructuring? request, statement.all q = true := by
  intro statement present
  unfold destructuring? at present
  split at present
  · cases present
    have entries : ∀ entry ∈ request.bindings.map Binding.render ++
        (if request.hasQuery then ["...query".toList] else []), entry.all q = true := by
      intro entry listed
      rcases List.mem_append.mp listed with bound | rest
      · obtain ⟨binding, inside, rfl⟩ := List.mem_map.mp bound
        exact (within binding inside).render admits
      · split at rest
        · rw [List.mem_singleton.mp rest]
          exact admits.all _ rfl
        · contradiction
    rw [List.all_append, List.all_append, all_inBracesList admits entries,
      admits.all "const " rfl, admits.all " = params;" rfl]
    rfl
  · contradiction

theorem all_headersEntry? : ∀ entry ∈ headersEntry? request, entry.all q = true := by
  intro entry present
  unfold headersEntry? at present
  split at present
  · contradiction
  · cases present
    have headers : ∀ entry ∈ request.headers.map headerEntry, entry.all q = true := by
      intro entry listed
      obtain ⟨binding, inside, rfl⟩ := List.mem_map.mp listed
      exact (within binding (List.mem_append_right _ inside)).pair admits
    rw [List.all_append, all_inBracesList admits headers, admits.all "headers: " rfl]
    rfl

theorem all_options? : ∀ options ∈ wrapper.options? request, options.all q = true := by
  intro options present
  have each : ∀ entry ∈ [wrapper.queryEntry? request, headersEntry? request,
      wrapper.dataEntry?].filterMap id, entry.all q = true := by
    intro entry listed
    simp only [List.mem_filterMap, List.mem_cons, List.not_mem_nil, or_false, id] at listed
    obtain ⟨source, rfl | rfl | rfl, found⟩ := listed
    · unfold queryEntry? at found
      split at found
      · cases found
        split
        · exact admits.all _ rfl
        · exact admits.all _ rfl
      · contradiction
    · exact all_headersEntry? admits within entry found
    · unfold dataEntry? at found
      split at found
      · cases found
        exact admits.all _ rfl
      · contradiction
  unfold options? at present
  split at present
  · contradiction
  · cases present
    exact all_inBracesList admits each

theorem all_pathArguments :
    (join ", " (request.pathArguments.map (·.name))).all q = true := by
  apply all_join (admits.all _ rfl)
  intro name listed
  obtain ⟨binding, inside, rfl⟩ := List.mem_map.mp listed
  exact (within binding (List.mem_append_left _ (List.mem_append_left _ inside))).name

/-- The arguments of the request start with the name of the endpoint, and a bracket can only stand
right behind it. -/
theorem callArguments_form (wrapper : Wrapper) (endpoint : Endpoint) :
    ∃ opening tail : Text, (opening = [] ∨ opening = ['(']) ∧ tail.all q = true ∧
      join ", " (wrapper.callArguments request endpoint) =
        endpoint.name ++ (opening ++ tail) := by
  have more : (((wrapper.bodyArgument? request).toList ++
      (wrapper.options? request).toList).flatMap (", ".toList ++ ·)).all q = true := by
    apply List.all_eq_true.mpr
    intro c member
    obtain ⟨argument, listed, inside⟩ := List.mem_flatMap.mp member
    have here : argument.all q = true := by
      simp only [List.mem_append, Option.mem_toList] at listed
      rcases listed with body | options
      · unfold bodyArgument? at body
        split at body
        · contradiction
        · split at body
          · cases body
            exact admits.all _ rfl
          · split at body
            · cases body
              exact admits.all _ rfl
            · contradiction
      · exact all_options? admits within argument options
    have separated : (", ".toList ++ argument).all q = true := by
      rw [List.all_append, here, admits.all ", ".toList rfl]
      rfl
    exact List.all_eq_true.mp separated c inside
  rw [callArguments, join_cons]
  unfold Endpoint.call
  split
  · refine ⟨['('], join ", " (request.pathArguments.map (·.name)) ++ (")".toList ++ _), Or.inr rfl,
      ?_, by simp only [List.append_assoc]; rfl⟩
    rw [List.all_append, List.all_append, all_pathArguments admits within, more,
      admits.all ")".toList rfl]
    rfl
  · exact ⟨[], _, Or.inl rfl, more, rfl⟩

end Class

section Lines

/-- No statement breaks a line where no key does, nor the result type. -/
theorem statements_free (within : ∀ binding ∈ request.bindings, binding.Within (· != '\n'))
    (named : '\n' ∉ endpoint.name) (known : wrapper.method ∈ Method.known)
    (typed : '\n' ∉ wrapper.resultType) :
    ∀ statement ∈ wrapper.statements request endpoint, '\n' ∉ statement := by
  have inLine : ∀ text : Text, text.all (· != '\n') = true → '\n' ∉ text := fun text all member =>
    absurd (List.all_eq_true.mp all '\n' member) (by decide)
  have lower : ∀ method ∈ Method.known, '\n' ∉ method.lowerName := by decide
  intro statement member
  rcases List.mem_append.mp member with first | last
  · exact inLine statement
      (all_destructuring? admits_inLine within statement (by simpa using first))
  · obtain ⟨opening, tail, bracket, quietTail, form⟩ :=
      callArguments_form admits_inLine within wrapper endpoint
    have bracketFree : '\n' ∉ opening := by
      rcases bracket with rfl | rfl <;> decide
    rw [List.mem_singleton.mp last, ← List.append_nil (wrapper.returnStatement request endpoint),
      returnStatement_append, form]
    simp [typed, lower wrapper.method known, named, bracketFree, inLine tail quietTail]

end Lines

section Request

variable (tame : ∀ binding ∈ request.bindings, binding.Tame)

include tame

theorem callsIn_callArguments (named : endpoint.Tame) {ending : Text}
    (quiet : ending.all (fun c => !opensCall c) = true) (afterWord : Bool) :
    callsIn afterWord (join ", " (wrapper.callArguments request endpoint) ++ ending) = [] := by
  obtain ⟨opening, tail, bracket, quietTail, form⟩ :=
    callArguments_form admits_isQuiet (fun binding inside => (tame binding inside).quiet) wrapper
      endpoint
  have name := no_bracket_of_quiet (quiet_of_isCapital named.name)
  have after : (tail ++ ending).all (fun c => !opensCall c) = true := by
    rw [List.all_append, no_bracket_of_quiet quietTail, quiet]
    rfl
  rw [form, List.append_assoc, List.append_assoc]
  rcases bracket with rfl | rfl
  · refine callsIn_of_no_bracket ?_ afterWord
    rw [List.nil_append, List.all_append, name, after]
    rfl
  · have noRequest : 'h' ∉ endpoint.name ++ ['('] := by
      intro member
      rcases List.mem_append.mp member with inside | bracket
      · exact absurd (List.all_eq_true.mp named.name 'h' inside) (by decide)
      · exact absurd bracket (by decide)
    rw [List.singleton_append, callsIn_cut (by decide), callsIn_of_no_h noRequest,
      callsIn_of_no_bracket after]
    rfl

/-- The method of a wrapper is read off its body. -/
theorem methodIn?_statements (named : endpoint.Tame) (known : wrapper.method ∈ Method.known)
    (plain : isPlain wrapper.resultType = true) :
    methodIn? (bodyText ((wrapper.statements request endpoint).map (' ' :: ·)) ++ ['\n']) =
      some wrapper.method := by
  have readBack : ∀ method ∈ Method.known, Method.named? method.lowerName = some method := by
    decide
  have before : (bodyText ((wrapper.destructuring? request).toList.map (' ' :: ·)) ++
      ['\n', ' ', ' ']).all (fun c => !opensCall c) = true := by
    rw [List.all_append, bodyText]
    cases found : wrapper.destructuring? request with
    | none => decide
    | some statement =>
      have quiet := no_bracket_of_quiet (all_destructuring? admits_isQuiet
        (fun binding inside => (tame binding inside).quiet) statement found)
      rw [Option.toList_some, List.map_singleton, List.flatMap_singleton, List.all_cons,
        List.all_cons, List.all_cons, quiet]
      decide
  have whole : bodyText ((wrapper.statements request endpoint).map (' ' :: ·)) ++ ['\n'] =
      (bodyText ((wrapper.destructuring? request).toList.map (' ' :: ·)) ++ ['\n', ' ', ' ']) ++
        (wrapper.returnStatement request endpoint ++ ['\n']) := by
    simp [statements, bodyText]
  rw [whole, returnStatement_append, methodIn?, callsIn_request known before
    (no_bracket_of_quiet (quiet_of_isPlain plain))
    (callsIn_callArguments tame named (by decide))]
  exact readBack wrapper.method known

end Request

end Wrapper

end TypedClient
