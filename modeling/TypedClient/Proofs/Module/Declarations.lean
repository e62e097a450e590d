import Mathlib.Data.List.Induction
import Mathlib.Data.List.Infix
import TypedClient.Module.Types
import TypedClient.Proofs.Module.Exports
import TypedClient.Proofs.Text.Trim

/-!
What the modules of endpoints and of types declare. Main statements: where no path breaks a line, the
lines of a module of endpoints export the planned endpoints and nothing else, and a line of a module
of types exports each alias whose name breaks no line.
-/

namespace TypedClient

open Text Name FoundWrapper

section Lines

variable {part line text blanks : Text} {parts : List Text}

/-- A part that does not end in a blank is no part of the blanks at the end. -/
theorem infix_of_append_blanks (blank : blanks.all isBlank = true)
    (ending : part.getLast?.any (fun c => !isBlank c) = true)
    (within : part <:+: text ++ blanks) : part <:+: text := by
  induction blanks using List.reverseRecOn with
  | nil => rwa [List.append_nil] at within
  | append_singleton blanks c ih =>
    rw [List.all_append, Bool.and_eq_true] at blank
    apply ih blank.1
    rw [← List.append_assoc] at within
    rcases List.infix_concat_iff.mp within with last | earlier
    · obtain ⟨before, whole⟩ := last
      have same := congrArg List.getLast? whole
      rw [List.getLast?_append, List.getLast?_append] at same
      cases own : part.getLast? with
      | none => rw [own] at ending; contradiction
      | some d =>
        rw [own] at ending same
        have equal : d = c := by simpa using same
        have clash : isBlank c = true := by simpa using blank.2
        rw [equal, Option.any_some, clash] at ending
        contradiction
    · exact earlier

theorem infix_flatMap (listed : part ∈ parts) (f : Text → Text) : f part <:+: parts.flatMap f := by
  rw [List.flatMap_def]
  exact List.infix_of_mem_flatten (List.mem_map_of_mem listed)

theorem line_infix_join (listed : line ∈ parts) : '\n' :: line <:+: '\n' :: join "\n" parts := by
  cases parts with
  | nil => contradiction
  | cons first more =>
    have whole : '\n' :: join "\n" (first :: more) = (first :: more).flatMap ('\n' :: ·) := by
      rw [join_cons, List.flatMap_cons]
      rfl
    rw [whole]
    exact infix_flatMap listed _

/-- Every line of a text but the first stands behind a line feed. -/
theorem line_infix_join_cons (first : Text) (listed : line ∈ parts) :
    '\n' :: line <:+: join "\n" (first :: parts) := by
  rw [join_cons]
  exact (infix_flatMap listed ('\n' :: ·)).trans (List.suffix_append _ _).isInfix

end Lines

namespace Module

section Assembled

variable {sections : List Text} {body line opening text : Text}

/-- What a line of a section opens with opens a line of the module. -/
theorem line_infix_assemble (listed : body ∈ sections)
    (ending : line.getLast?.any (fun c => !isBlank c) = true)
    (within : '\n' :: line <:+: '\n' :: body) : '\n' :: line <:+: assemble sections := by
  obtain ⟨blanks, blank, whole⟩ := exists_trimEnd_blanks body
  have last : ('\n' :: line).getLast?.any (fun c => !isBlank c) = true := by
    rw [List.getLast?_cons]
    cases own : line.getLast? with
    | none => rw [own] at ending; contradiction
    | some c => rwa [own] at ending
  rw [whole, ← List.cons_append] at within
  have kept := infix_of_append_blanks blank last within
  have filled : trimEnd body ≠ [] := by
    intro none
    rw [none] at kept
    have short := kept.length_le
    cases line with
    | nil => contradiction
    | cons => simp at short
  have written : trimEnd body ∈ (sections.map trimEnd).filter (· ≠ []) := by
    simp only [List.mem_filter, decide_eq_true filled, and_true]
    exact List.mem_map_of_mem listed
  have inside : '\n' :: trimEnd body <:+: assemble sections := by
    apply List.IsInfix.trans _ (List.suffix_append _ _).isInfix
    exact (List.prefix_append _ ['\n']).isInfix.trans
      (infix_flatMap written fun body => '\n' :: body ++ ['\n'])
  exact kept.trans inside

end Assembled

section Collapsed

variable {latest : Option Text} {kept rest : List Text} {line opening text : Text}

theorem mem_dropBlank (filled : allBlank line = false) (listed : line ∈ kept) :
    line ∈ dropBlank kept := by
  cases kept with
  | nil => contradiction
  | cons first more =>
    rw [dropBlank]
    split
    · rename_i blank
      rcases List.mem_cons.mp listed with rfl | later
      · rw [filled] at blank
        contradiction
      · exact later
    · exact listed

/-- A line that is neither blank nor a header is kept. -/
theorem mem_keepLines (filled : allBlank line = false) (plain : isGroupHeader line = false)
    (listed : line ∈ kept ∨ line ∈ rest) : line ∈ keepLines latest kept rest := by
  induction rest generalizing latest kept with
  | nil => exact listed.resolve_right List.not_mem_nil
  | cons first rest ih =>
    have other : isGroupHeader first = true → line ≠ first := by
      rintro header rfl
      rw [plain] at header
      contradiction
    rw [keepLines]
    split
    · rename_i header
      have later : line ∈ kept ∨ line ∈ rest :=
        listed.imp_right fun inside => (List.mem_cons.mp inside).resolve_left (other header)
      split
      · exact ih (later.imp_left (mem_dropBlank filled))
      · exact ih (later.imp_left (List.mem_cons_of_mem first))
    · apply ih
      rcases listed with earlier | inside
      · exact .inl (List.mem_cons_of_mem first earlier)
      · rcases List.mem_cons.mp inside with rfl | later
        · exact .inl List.mem_cons_self
        · exact .inr later

/-- What a line opens with is kept, unless the line is a header. -/
theorem line_infix_collapseGroups (free : '\n' ∉ opening)
    (starts : opening.head? = some 'e') (ending : opening.getLast? ≠ some '\r')
    (within : '\n' :: opening <:+: text) :
    '\n' :: opening <:+: '\n' :: collapseGroups text := by
  have nonempty : opening ≠ [] := by
    rintro rfl
    contradiction
  obtain ⟨line, listed, opens⟩ := exists_line_of_infix free nonempty ending within
  obtain ⟨tail, rfl⟩ := opens
  obtain ⟨more, rfl⟩ : ∃ more, opening = 'e' :: more := by
    cases opening with
    | nil => contradiction
    | cons c more => exact ⟨more, by rw [Option.some.inj starts]⟩
  have solid : isBlank 'e' = false := by decide
  have filled : allBlank ('e' :: more ++ tail) = false := by
    rw [allBlank, List.cons_append, List.all_cons, solid, Bool.false_and]
  have plain : isGroupHeader ('e' :: more ++ tail) = false := rfl
  have member : 'e' :: more ++ tail ∈ (keepLines none [] (lines text)).reverse :=
    List.mem_reverse.mpr (mem_keepLines filled plain (.inr listed))
  have whole : '\n' :: ('e' :: more ++ tail) <:+: '\n' :: collapseGroups text := by
    apply (line_infix_join member).trans
    exact (List.prefix_append _ _).isInfix
  exact (List.prefix_append _ tail).isInfix.trans whole

end Collapsed

section Types

variable {operations : List OperationTypes} {types : OperationTypes} {entry : Alias}

/-- What the line that exports an alias opens with. -/
def exportOpening (name : Text) : Text := "export type ".toList ++ name ++ " =".toList

theorem exportLine_opens (locals : List (Text × Text)) (entry : Alias) :
    exportOpening entry.name <+: exportLine locals entry := by
  have between : " = ".toList = " =".toList ++ [' '] := rfl
  refine ⟨' ' :: renderTarget locals entry.target ++ [';'], ?_⟩
  unfold exportLine exportOpening
  rw [between]
  simp only [List.append_assoc, List.cons_append, List.nil_append]
  rfl

theorem getLast?_exportOpening (name : Text) : (exportOpening name).getLast? = some '=' := by
  unfold exportOpening
  rw [List.getLast?_append]
  rfl

theorem exportOpening_free {name : Text} (free : '\n' ∉ name) : '\n' ∉ exportOpening name := by
  have first : '\n' ∉ "export type ".toList := by decide
  have last : '\n' ∉ " =".toList := by decide
  unfold exportOpening
  rw [List.mem_append, List.mem_append, not_or, not_or]
  exact ⟨⟨first, free⟩, last⟩

/-- The aliases of an operation stand behind the header of its group. -/
theorem opening_infix_typesBlock (locals : List (Text × Text)) (listed : entry ∈ types.aliases) :
    '\n' :: exportOpening entry.name <:+: typesBlock locals types := by
  have written : exportLine locals entry ∈ types.aliases.map (exportLine locals) :=
    List.mem_map_of_mem listed
  have opens : '\n' :: exportOpening entry.name <+: '\n' :: exportLine locals entry :=
    List.cons_prefix_cons.mpr ⟨rfl, exportLine_opens locals entry⟩
  exact opens.isInfix.trans (line_infix_join_cons _ written)

/-- Every alias whose name breaks no line is exported by a line of the module of types. -/
theorem alias_declared (server tag : Text) (imports : ImportPaths) (listed : types ∈ operations)
    (inside : entry ∈ types.aliases) (free : '\n' ∉ entry.name) :
    '\n' :: exportOpening entry.name <:+: validatedTypes server tag operations imports := by
  have ends := getLast?_exportOpening entry.name
  have block := opening_infix_typesBlock (localsFor operations) inside
  have written : typesBlock (localsFor operations) types <:+:
      join "\n\n" (operations.map (typesBlock (localsFor operations))) :=
    infix_join (List.mem_map_of_mem listed)
  refine line_infix_assemble (List.mem_cons_of_mem _ (List.mem_cons_of_mem _ List.mem_cons_self))
    ?_ (line_infix_collapseGroups (exportOpening_free free) rfl ?_ (block.trans written))
  · rw [ends]
    decide
  · rw [ends]
    decide

/-- Every local name is declared by a line of the module of types. -/
theorem local_declared (server tag : Text) (imports : ImportPaths) {entry : Text × Text}
    (listed : entry ∈ localsFor operations) :
    '\n' :: localLine entry <:+: validatedTypes server tag operations imports := by
  refine line_infix_assemble (List.mem_cons_of_mem _ List.mem_cons_self) ?_
    (line_infix_join (List.mem_map_of_mem listed))
  have ends : (localLine entry).getLast? = some ';' := by
    unfold localLine
    rw [List.getLast?_append]
    rfl
  rw [ends]
  decide

end Types

end Module

namespace Path

/-- The literal text of a path stands in it. -/
theorem subset_of_literal_mem_parts {path : Text} :
    ∀ text, Part.literal text ∈ parts path → text ⊆ path := by
  fun_induction parts path with
  | case1 =>
    intro text member
    cases List.mem_singleton.mp member
    exact List.nil_subset _
  | case2 c rest name after found ih =>
    obtain ⟨_, behind⟩ := placeholder?_subset found
    intro text member
    rcases List.mem_cons.mp member with same | member
    · cases same
      exact List.nil_subset _
    rcases List.mem_cons.mp member with other | later
    · contradiction
    · exact List.Subset.trans (ih text later) behind
  | case3 c rest none ih =>
    intro text member
    unfold consLiteral at member
    split at member
    · rename_i first more opening
      rcases List.mem_cons.mp member with same | later
      · cases same
        exact List.cons_subset_cons c (ih first (opening ▸ List.mem_cons_self))
      · exact List.subset_cons_of_subset c (ih text (opening ▸ List.mem_cons_of_mem _ later))
    · rcases List.mem_cons.mp member with same | later
      · cases same
        exact List.cons_subset_cons c (List.nil_subset rest)
      · exact List.subset_cons_of_subset c (ih text later)

end Path

namespace Endpoint

variable {operations : List OperationTypes} {endpoint : Endpoint} {mark : Char}

theorem bare_of_mem_plan (member : endpoint ∈ plan operations) :
    ∀ placeholder ∈ endpoint.placeholders, placeholder.2.all isBare = true := by
  obtain ⟨types, _, name, _, rfl⟩ := mem_plan member
  intro placeholder listed
  obtain ⟨_, named⟩ := List.of_mem_zip listed
  apply all_of_mem_uniques isBare_of_isDigit ?_ named
  intro base based
  obtain ⟨key, _, rfl⟩ := List.mem_map.mp based
  exact all_identifier key

theorem not_mem_escape {special : Char → Bool} {text : Text} (absent : mark ∉ text)
    (other : mark ≠ '\\') : mark ∉ escape special text := by
  intro member
  obtain ⟨c, inside, written⟩ := List.mem_flatMap.mp member
  have same : mark = c := by
    split at written <;> simp_all
  exact absent (same ▸ inside)

theorem template_free {arguments : List Text} {parts : List Path.Part}
    (literals : ∀ text, Path.Part.literal text ∈ parts → '\n' ∉ text)
    (given : ∀ argument ∈ arguments, '\n' ∉ argument) : '\n' ∉ template arguments parts := by
  induction parts generalizing arguments with
  | nil => exact List.not_mem_nil
  | cons part rest ih =>
    have later := fun text inside => literals text (List.mem_cons_of_mem part inside)
    cases part with
    | literal text =>
      have free := literals text List.mem_cons_self
      have escaped : '\n' ∉ escapeTemplate text :=
        not_mem_replace (not_mem_escape free (by decide)) (by decide)
      rw [template, List.mem_append, not_or]
      exact ⟨escaped, ih later given⟩
    | placeholder name =>
      have first : '\n' ∉ arguments.headD [] := by
        cases arguments with
        | nil => exact List.not_mem_nil
        | cons argument more => exact given argument List.mem_cons_self
      have behind := ih later fun argument inside => given argument (List.mem_of_mem_tail inside)
      rw [template]
      simp only [List.mem_append, not_or]
      exact ⟨⟨⟨by decide, first⟩, by decide⟩, behind⟩

theorem exportName?_render (named : endpoint.name.all isCapital = true) :
    Module.exportName? endpoint.render = some endpoint.name := by
  have bare : endpoint.name.all isNameChar = true :=
    all_imp (fun c capital => isNameChar_of_isBare c (isBare_of_isCapital c capital)) named
  unfold render
  split
  · simp only [List.append_assoc]
    apply Module.exportName?_append bare
    change (!isNameChar ' ') = true
    decide
  · simp only [List.append_assoc]
    apply Module.exportName?_append bare
    change (!isNameChar ' ') = true
    decide

theorem getLast?_render (endpoint : Endpoint) : endpoint.render.getLast? = some ';' := by
  unfold render
  split
  · rw [List.getLast?_append]
    rfl
  · rw [List.getLast?_append]
    rfl

theorem render_free (member : endpoint ∈ plan operations)
    (free : ∀ types ∈ operations, '\n' ∉ types.path) : '\n' ∉ endpoint.render := by
  have name := no_line_end_of_quiet (quiet_of_isCapital (capital_of_mem_plan member))
  have path : '\n' ∉ endpoint.path := by
    obtain ⟨types, listed, _, _, rfl⟩ := mem_plan member
    exact free types listed
  have words : ∀ placeholder ∈ endpoint.placeholders, '\n' ∉ placeholder.2 :=
    fun placeholder listed => no_line_end_of_quiet
      (all_of_isBare (by decide) (bare_of_mem_plan member placeholder listed))
  unfold render
  split
  · have parameters : '\n' ∉
        join ", " ((endpoint.placeholders.map (·.2)).map parameterText) := by
      apply not_mem_join (by decide)
      intro text listed
      obtain ⟨argument, inside, rfl⟩ := List.mem_map.mp listed
      obtain ⟨placeholder, own, rfl⟩ := List.mem_map.mp inside
      simp [parameterText, words placeholder own]
    have body : '\n' ∉ template (endpoint.placeholders.map (·.2)) (Path.parts endpoint.path) := by
      apply template_free
      · intro text listed inside
        exact path (Path.subset_of_literal_mem_parts text listed inside)
      · intro argument inside
        obtain ⟨placeholder, own, rfl⟩ := List.mem_map.mp inside
        exact words placeholder own
    simp only [List.mem_append, not_or]
    exact ⟨⟨⟨⟨⟨⟨by decide, name⟩, by decide⟩, parameters⟩, by decide⟩, body⟩, by decide⟩
  · have escaped : '\n' ∉ escape (· == '\'') endpoint.path := not_mem_escape path (by decide)
    simp only [List.mem_append, not_or]
    exact ⟨⟨⟨⟨by decide, name⟩, by decide⟩, escaped⟩, by decide⟩

/-- Where no path breaks a line, a module of endpoints exports them and nothing else. -/
theorem exports_endpoints (free : ∀ types ∈ operations, '\n' ∉ types.path) :
    Module.exports (Module.endpoints (plan operations)) = (plan operations).map (·.name) := by
  unfold Module.endpoints
  split
  · rename_i none
    rw [none]
    decide
  · rename_i filled
    have present : (plan operations).map render ≠ [] := by simpa using filled
    have named : ((plan operations).map render).filterMap Module.exportName? =
        (plan operations).map (·.name) := by
      rw [List.filterMap_map, ← List.filterMap_eq_map]
      apply List.filterMap_congr
      intro endpoint member
      exact exportName?_render (capital_of_mem_plan member)
    have whole : Module.assemble [join "\n" ((plan operations).map render)] =
        Module.assemble ([(plan operations).map render].map (join "\n")) := rfl
    rw [whole, Module.exports_assemble]
    case filled =>
      intro lines listed
      rwa [List.mem_singleton.mp listed]
    case closed =>
      intro lines listed
      rw [List.mem_singleton.mp listed]
      apply DomainApi.getLast?_join present
      intro line inside
      obtain ⟨endpoint, _, rfl⟩ := List.mem_map.mp inside
      exact endpoint.getLast?_render
    case free =>
      intro lines listed line inside
      rw [List.mem_singleton.mp listed] at inside
      obtain ⟨endpoint, member, rfl⟩ := List.mem_map.mp inside
      exact render_free member free
    rw [List.flatMap_singleton, named]

end Endpoint

end TypedClient
