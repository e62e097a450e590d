import TypedClient.Proofs.Module.WrapperCharacters

/-!
A wrapper read back. Main statement: reading the text that a wrapper is written as gives its name,
operation, method, arguments and return type again.
-/

namespace TypedClient

open Text Name FoundWrapper

section Docs

theorem fillTemplate_standard (context : DocContext) :
    fillTemplate DocTemplates.standard.wrapper context =
      context.method.token ++ ' ' :: context.path := by
  have parts : templateParts DocTemplates.standard.wrapper =
      [.placeholder "method", .other ' ', .placeholder "path"] := by decide +kernel
  have method : context.value? "method" = some context.method.token := if_pos rfl
  have path : context.value? "path" = some context.path := by
    unfold DocContext.value?
    rw [if_neg (by decide), if_pos rfl]
  unfold fillTemplate
  rw [parts]
  simp only [List.flatMap_cons, List.flatMap_nil, method, path, Option.getD_some, List.append_nil]
  rfl

theorem lines_of_single {text : Text} (filled : text ≠ []) (single : '\n' ∉ text) :
    lines text = [text] := by
  rw [lines, List.splitOn_eq_singleton single]
  simp [filled]

/-- The standard doc comment is one line of method and path. -/
theorem docLines_standard (context : DocContext) (known : context.method ∈ Method.known)
    (inPath : context.path.all isPathChar = true) :
    ∀ line ∈ docLines DocTemplates.standard.wrapper context, '*' ∉ line ∧ '@' ∉ line := by
  have token : ∀ method ∈ Method.known,
      method.token.all (fun c => c != '*' && c != '@' && c != '\n') = true := by decide
  have filled : (context.method.token ++ ' ' :: context.path).all
      (fun c => c != '*' && c != '@' && c != '\n') = true := by
    have path : context.path.all (fun c => c != '*' && c != '@' && c != '\n') = true :=
      all_imp (fun _ => isPathChar_imp (q := fun c => c != '*' && c != '@' && c != '\n')
        (by decide)) inPath
    rw [List.all_append, List.all_cons, token context.method known, path]
    decide
  have free : ∀ c ∈ context.method.token ++ ' ' :: context.path, c ≠ '*' ∧ c ≠ '@' ∧ c ≠ '\n' := by
    intro c member
    have here := List.all_eq_true.mp filled c member
    simp only [Bool.and_eq_true, bne_iff_ne] at here
    exact ⟨here.1.1, here.1.2, here.2⟩
  have trimmed := (trimEnd_opens (context.method.token ++ ' ' :: context.path)).subset
  have noStar : '*' ∉ trimEnd (context.method.token ++ ' ' :: context.path) := fun member =>
    (free '*' (trimmed member)).1 rfl
  intro line listed
  rw [docLines, fillTemplate_standard, lines_of_single (by simp)
    fun member => (free '\n' member).2.2 rfl] at listed
  have same : line = trimEnd (context.method.token ++ ' ' :: context.path) := by
    have unbroken : breakCommentEnds (trimEnd (context.method.token ++ ' ' :: context.path)) =
        trimEnd (context.method.token ++ ' ' :: context.path) := replace_of_absent noStar
    have inside := (List.mem_filter.mp listed).1
    rwa [List.map_singleton, unbroken, List.mem_singleton] at inside
  rw [same]
  exact ⟨noStar, fun member => (free '@' (trimmed member)).2.1 rfl⟩

end Docs

namespace Wrapper

/-- A wrapper that is written in plain names. -/
structure Plain (wrapper : Wrapper) : Prop where
  name : isPlain wrapper.name = true
  operation : isPlain wrapper.operation = true
  method : wrapper.method ∈ Method.known
  path : wrapper.path.all isPathChar = true
  params : ∀ type ∈ wrapper.paramsType, isPlain type = true
  body : ∀ type ∈ wrapper.bodyType, isPlain type = true
  result : isPlain wrapper.resultType = true

/-- The arguments of a wrapper with their types. -/
def arguments (wrapper : Wrapper) : List (Text × Text) :=
  (wrapper.paramsType.map fun type => ("params".toList, type)).toList ++
    (wrapper.bodyType.map fun type => ("body".toList, type)).toList

/-- What reading a wrapper gives. -/
def found (wrapper : Wrapper) : FoundWrapper where
  name := wrapper.name
  operation := some wrapper.operation
  method := some wrapper.method
  arguments := wrapper.arguments.map fun argument => ⟨argument.1, some argument.2⟩
  returnType := some wrapper.resultType

variable {wrapper : Wrapper} {parameters : List Parameter} {endpoint : Endpoint}

theorem signature_eq (wrapper : Wrapper) :
    wrapper.signature = join ", " (wrapper.arguments.map fun argument =>
      typed argument.1 argument.2) := by
  unfold signature arguments
  cases wrapper.paramsType <;> cases wrapper.bodyType <;> rfl

theorem Plain.arguments (plain : wrapper.Plain) : ∀ argument ∈ wrapper.arguments,
    isPlain argument.1 = true ∧ isPlain argument.2 = true := by
  intro argument member
  simp only [Wrapper.arguments, List.mem_append, Option.mem_toList,
    Option.map_eq_some_iff] at member
  rcases member with ⟨type, present, rfl⟩ | ⟨type, present, rfl⟩
  · exact ⟨rfl, plain.params type present⟩
  · exact ⟨rfl, plain.body type present⟩

theorem join_indented (statements : List Text) (filled : statements ≠ []) :
    "\n".toList ++ join "\n" (statements.map indented) = bodyText (statements.map (' ' :: ·)) := by
  cases statements with
  | nil => exact absurd rfl filled
  | cons first more =>
    rw [List.map_cons, join_cons, bodyText, List.map_cons, List.flatMap_cons, List.flatMap_map,
      List.flatMap_map]
    rfl

theorem render_eq (wrapper : Wrapper) (parameters : List Parameter) (endpoint : Endpoint)
    (template : Text) :
    wrapper.render parameters endpoint template =
      Module.docComment (docLines template wrapper.docContext ++
        ["@operationId ".toList ++ wrapper.operation]) 0 ++
      '\n' :: layout wrapper.name wrapper.signature wrapper.resultType
        ((wrapper.statements (Request.plan parameters endpoint) endpoint).map (' ' :: ·)) := by
  have body := join_indented (wrapper.statements (Request.plan parameters endpoint) endpoint)
    (by simp [statements])
  unfold render layout
  simp only [List.append_assoc]
  rw [← body]
  simp only [List.append_assoc]
  rfl

theorem getLast?_render (wrapper : Wrapper) (parameters : List Parameter) (endpoint : Endpoint)
    (template : Text) : (wrapper.render parameters endpoint template).getLast? = some ';' := by
  unfold render
  rw [List.getLast?_append]
  rfl

theorem Plain.closed_signature (plain : wrapper.Plain) :
    wrapper.signature.all (· != ')') = true := by
  rw [signature_eq]
  apply all_join (by decide)
  intro part member
  obtain ⟨argument, listed, rfl⟩ := List.mem_map.mp member
  obtain ⟨named, type⟩ := plain.arguments argument listed
  rw [typed, List.all_append, List.all_append, all_of_isPlain (by decide) named,
    all_of_isPlain (by decide) type]
  decide

/-- What is taken out of the written parts is what the wrapper was made from. -/
theorem ofWritten_eq (plain : wrapper.Plain) (named : endpoint.Tame)
    (inPath : ∀ parameter ∈ parameters, parameter.name.all isPathChar = true) :
    ofWritten
      (some (docInside (docLines DocTemplates.standard.wrapper wrapper.docContext ++
        ["@operationId ".toList ++ wrapper.operation])))
      ⟨wrapper.name, wrapper.signature, some wrapper.resultType,
        bodyText
          ((wrapper.statements (Request.plan parameters endpoint) endpoint).map (' ' :: ·)) ++
            ['\n']⟩ = wrapper.found := by
  have tame := Request.tame_of_mem_plan named inPath
  have docs := docLines_standard wrapper.docContext plain.method plain.path
  have operation := operationIn?_docInside (fun line member => (docs line member).2)
    (ne_nil_of_isPlain plain.operation) (solid_of_isPlain plain.operation)
  have arguments := argumentsIn_typed plain.arguments
  rw [← signature_eq] at arguments
  have result : trim wrapper.resultType = wrapper.resultType :=
    trim_of_solid [] rfl (solid_of_isPlain plain.result)
  have filled := ne_nil_of_isPlain plain.result
  simp only [ofWritten, found, operation, arguments, result, Option.bind_some, Option.map_some,
    methodIn?_statements tame named plain.method plain.result]
  rw [Option.filter_some, if_pos (by simpa using filled)]

/-- A wrapper at the start of a text is read as it was written. -/
theorem findFrom_render (plain : wrapper.Plain) (named : endpoint.Tame)
    (inPath : ∀ parameter ∈ parameters, parameter.name.all isPathChar = true) (rest : Text) :
    findFrom true (wrapper.render parameters endpoint DocTemplates.standard.wrapper ++ rest) =
      wrapper.found :: findFrom false rest := by
  have tame := Request.tame_of_mem_plan named inPath
  have docs := docLines_standard wrapper.docContext plain.method plain.path
  have noStar : ∀ line ∈ docLines DocTemplates.standard.wrapper wrapper.docContext ++
      ["@operationId ".toList ++ wrapper.operation], '*' ∉ line := by
    intro line member
    rcases List.mem_append.mp member with first | last
    · exact (docs line first).1
    · have plainId : wrapper.operation.all (· != '*') = true :=
        all_of_isPlain (by decide) plain.operation
      have whole : ("@operationId ".toList ++ wrapper.operation).all (· != '*') = true := by
        rw [List.all_append, plainId]
        decide
      rw [List.mem_singleton.mp last]
      exact fun inside => absurd (List.all_eq_true.mp whole '*' inside) (by decide)
  have typed : wrapper.resultType.all (fun c => c != '\n' && c != '>') = true :=
    all_of_isPlain (by decide) plain.result
  have free : ∀ line ∈ (wrapper.statements (Request.plan parameters endpoint) endpoint).map
      (' ' :: ·), '\n' ∉ line := by
    intro line listed
    obtain ⟨statement, member, rfl⟩ := List.mem_map.mp listed
    have inLine := statements_free (fun binding inside => (tame binding inside).inLine)
      (no_line_end_of_quiet (quiet_of_isCapital named.name)) plain.method
      (no_line_end_of_quiet (quiet_of_isPlain plain.result)) statement member
    simpa using inLine
  rw [render_eq, List.append_assoc, List.cons_append,
    findFrom_of_read? (read?_layout plain.name plain.closed_signature typed
      free noStar true rest),
    ofWritten_eq plain named inPath]

end Wrapper

end TypedClient
