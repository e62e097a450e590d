import TypedClient.Proofs.Module.EndpointPairing
import TypedClient.Proofs.Module.WrapperScope
import TypedClient.Proofs.Text.Lines

/-!
The constants that the lines of a module export. Main statements: every wrapper that is found in a
module is exported by a line of it, and where no text taken over into a module of wrappers breaks a
line, the lines of that module export its wrappers and nothing else.
-/

namespace TypedClient

open Text Name FoundWrapper

namespace Module

/-- The name of the constant that a line exports. -/
def exportName? (line : Text) : Option Text :=
  ("export const ".toList.isPrefixOf? line).map (List.takeWhile isNameChar)

def exportsFrom (atLineStart : Bool) : Text → List Text
  | [] => []
  | c :: rest =>
    (if atLineStart then exportName? (c :: rest) else none).toList ++ exportsFrom (c == '\n') rest

/-- The names of the constants that the lines of a text export, in order. -/
def exports (text : Text) : List Text := exportsFrom true text

section Parts

variable {text before rest : Text}

theorem exportsFrom_append (atLineStart : Bool) (before rest : Text) :
    exportsFrom (startsLine atLineStart before) rest <:+
      exportsFrom atLineStart (before ++ rest) := by
  induction before generalizing atLineStart with
  | nil => exact List.suffix_refl _
  | cons c before ih =>
    rw [startsLine_cons, List.cons_append, exportsFrom]
    exact (ih (c == '\n')).trans (List.suffix_append _ _)

theorem exportsFrom_false (text : Text) : exportsFrom false text <:+ exportsFrom true text := by
  cases text with
  | nil => exact List.suffix_refl _
  | cons c rest => exact List.suffix_append _ _

theorem exportsFrom_suffix (atLineStart : Bool) {text rest : Text} (ending : rest <:+ text) :
    exportsFrom false rest <:+ exportsFrom atLineStart text := by
  obtain ⟨before, rfl⟩ := ending
  refine List.IsSuffix.trans ?_ (exportsFrom_append atLineStart before rest)
  cases startsLine atLineStart before with
  | false => exact List.suffix_refl _
  | true => exact exportsFrom_false rest

end Parts

section Lines

variable {word line : Text} {lines : List Text}

theorem isPrefixOf?_line (free : '\n' ∉ word) (line rest : Text) :
    word.isPrefixOf? (line ++ '\n' :: rest) =
      (word.isPrefixOf? line).map (· ++ '\n' :: rest) := by
  have step : ∀ (c d : Char) (word text : Text), (c :: word).isPrefixOf? (d :: text) =
      if c == d then word.isPrefixOf? text else none := fun _ _ _ _ => rfl
  induction word generalizing line with
  | nil => rfl
  | cons c word ih =>
    rw [List.mem_cons, not_or] at free
    cases line with
    | nil =>
      rw [List.nil_append, step, if_neg (by simpa using Ne.symm free.1)]
      rfl
    | cons d line =>
      rw [List.cons_append, step, step]
      split
      · exact ih free.2 line
      · rfl

/-- What follows a line does not show in what it exports. -/
theorem exportName?_line (line rest : Text) :
    exportName? (line ++ '\n' :: rest) = exportName? line := by
  unfold exportName?
  rw [isPrefixOf?_line (by decide), Option.map_map]
  refine congrArg (Option.map · _) (funext fun behind => ?_)
  have stops : isNameChar '\n' = false := by decide
  rw [Function.comp_apply, List.takeWhile_append]
  split
  · rename_i whole
    have same := (List.takeWhile_prefix isNameChar).eq_of_length whole
    simp [stops, same]
  · rfl

theorem exportsFrom_in_line (free : '\n' ∉ line) (rest : Text) :
    exportsFrom false (line ++ '\n' :: rest) = exportsFrom true rest := by
  induction line with
  | nil => rfl
  | cons c line ih =>
    rw [List.mem_cons, not_or] at free
    rw [List.cons_append, exportsFrom, beq_false_of_ne (Ne.symm free.1), ih free.2]
    rfl

theorem exportsFrom_line (free : '\n' ∉ line) (rest : Text) :
    exportsFrom true (line ++ '\n' :: rest) =
      (exportName? line).toList ++ exportsFrom true rest := by
  have own := exportName?_line line rest
  cases line with
  | nil => rfl
  | cons c line =>
    rw [List.mem_cons, not_or] at free
    rw [List.cons_append] at own ⊢
    rw [exportsFrom, if_pos rfl, own, beq_false_of_ne (Ne.symm free.1),
      exportsFrom_in_line free.2]

theorem exports_unlines (free : ∀ line ∈ lines, '\n' ∉ line) :
    exports (unlines lines) = lines.filterMap exportName? := by
  induction lines with
  | nil => rfl
  | cons line lines ih =>
    have later := ih fun other member => free other (List.mem_cons_of_mem _ member)
    have whole : unlines (line :: lines) = line ++ '\n' :: unlines lines := by
      simp [unlines]
    unfold exports at later ⊢
    rw [whole, exportsFrom_line (free line List.mem_cons_self), later]
    cases named : exportName? line <;> simp [named]

theorem exportName?_append {name rest : Text} (named : name.all isNameChar = true)
    (stops : rest.head?.all (fun c => !isNameChar c) = true) :
    exportName? ("export const ".toList ++ (name ++ rest)) = some name := by
  rw [exportName?, isPrefixOf?_append, Option.map_some, takeWhile_append_of_stop name named stops]

/-- A line that does not start as an export does exports nothing. -/
theorem exportName?_of_head (other : line.head? ≠ some 'e') : exportName? line = none := by
  cases line with
  | nil => rfl
  | cons c line =>
    have start : ('e' == c) = false := beq_false_of_ne fun same => other (by rw [same]; rfl)
    have step : "export const ".toList.isPrefixOf? (c :: line) =
        if 'e' == c then "xport const ".toList.isPrefixOf? line else none := rfl
    rw [exportName?, step, start]
    rfl

end Lines

end Module

namespace FoundWrapper

theorem isNameChar_of_isBare (c : Char) (bare : isBare c = true) : isNameChar c = true :=
  continuesIdentifier_imp (by decide) (continuesIdentifier_of_isBare c bare)

section Found

variable {text line after : Text} {doc : Option Text} {written : Written}

/-- A doc comment ends before a line. -/
theorem startsLine_of_readDoc? {doc : Text} (read : readDoc? text = some (doc, line))
    (atLineStart : Bool) :
    ∃ before, text = before ++ line ∧ startsLine atLineStart before = true := by
  obtain ⟨rest, opens, read⟩ := Option.bind_eq_some_iff.mp read
  obtain ⟨⟨_, tail⟩, closes, read⟩ := Option.bind_eq_some_iff.mp read
  dsimp only at read
  split at read
  · rename_i last
    cases read
    obtain ⟨comment, whole⟩ := docTail?_suffix closes
    refine ⟨"/**".toList ++ (comment ++ tail.takeWhile isBlank), ?_, ?_⟩
    · rw [eq_append_of_isPrefixOf? opens, ← whole]
      simp [trimStart]
    · unfold startsLine
      rw [List.getLast?_append, List.getLast?_append, last]
      rfl
  · contradiction

theorem exportName?_of_readName? {name : Text} (read : readName? line = some (name, after)) :
    Module.exportName? line = some name := by
  obtain ⟨rest, opens, read⟩ := Option.bind_eq_some_iff.mp read
  rw [Module.exportName?, opens]
  split at read
  · obtain ⟨_, _, read⟩ := Option.bind_eq_some_iff.mp read
    obtain ⟨_, _, read⟩ := Option.bind_eq_some_iff.mp read
    obtain ⟨_, _, read⟩ := Option.bind_eq_some_iff.mp read
    cases read
    rfl
  · contradiction

theorem readName?_suffix {name : Text} (read : readName? line = some (name, after)) :
    after <:+ line := by
  obtain ⟨rest, opens, read⟩ := Option.bind_eq_some_iff.mp read
  split at read
  · obtain ⟨_, equals, read⟩ := Option.bind_eq_some_iff.mp read
    obtain ⟨_, async, read⟩ := Option.bind_eq_some_iff.mp read
    obtain ⟨_, bracket, read⟩ := Option.bind_eq_some_iff.mp read
    cases read
    exact ((((skip?_suffix bracket).trans (skip?_suffix async)).trans
      (skip?_suffix equals)).trans (List.dropWhile_suffix isNameChar)).trans
        (isPrefixOf?_suffix opens)
  · contradiction

/-- A wrapper that is read begins with the line that exports it. -/
theorem exportName?_of_readWritten? (read : readWritten? line = some (written, after)) :
    Module.exportName? line = some written.name ∧ after <:+ line := by
  obtain ⟨⟨name, opened⟩, named, read⟩ := Option.bind_eq_some_iff.mp read
  obtain ⟨_, bracket, read⟩ := Option.bind_eq_some_iff.mp read
  obtain ⟨⟨_, _⟩, result, read⟩ := Option.bind_eq_some_iff.mp read
  obtain ⟨⟨_, _⟩, inside, read⟩ := Option.bind_eq_some_iff.mp read
  cases read
  refine ⟨exportName?_of_readName? named, ?_⟩
  exact ((((readBody?_suffix inside).trans (readResult?_suffix result)).trans
    (isPrefixOf?_suffix bracket)).trans (List.dropWhile_suffix (· != ')'))).trans
      (readName?_suffix named)

/-- The line that a wrapper is read off, with a doc comment before it or without. -/
theorem line_of_read? {atLineStart : Bool}
    (read : read? atLineStart text = some (doc, written, after)) :
    ∃ before line, text = before ++ line ∧ startsLine atLineStart before = true ∧
      readWritten? line = some (written, after) := by
  unfold read? at read
  split at read
  · rename_i comment line found
    obtain ⟨⟨_, _⟩, here, same⟩ := Option.map_eq_some_iff.mp read
    cases same
    obtain ⟨before, whole, starts⟩ := startsLine_of_readDoc? found atLineStart
    exact ⟨before, line, whole, starts, here⟩
  · split at read
    · rename_i starts
      obtain ⟨⟨_, _⟩, here, same⟩ := Option.map_eq_some_iff.mp read
      cases same
      exact ⟨[], text, rfl, starts, here⟩
    · contradiction

theorem names_findFrom (atLineStart : Bool) (text : Text) :
    ((findFrom atLineStart text).map (·.name)).Sublist (Module.exportsFrom atLineStart text) := by
  fun_induction findFrom atLineStart text with
  | case1 => exact List.Sublist.refl _
  | case2 atLineStart c rest doc written after read ih =>
    obtain ⟨before, line, whole, starts, here⟩ := line_of_read? read
    obtain ⟨named, ending⟩ := exportName?_of_readWritten? here
    have shorter := readWritten?_length here
    cases line with
    | nil => contradiction
    | cons d tail =>
      have inTail : after <:+ tail := by
        rcases List.suffix_cons_iff.mp ending with same | later
        · rw [same] at shorter
          exact absurd shorter (Nat.lt_irrefl _)
        · exact later
      have later : Module.exportsFrom (startsLine atLineStart before) (d :: tail) =
          written.name :: Module.exportsFrom (d == '\n') tail := by
        rw [Module.exportsFrom, if_pos starts, named]
        rfl
      have found := Module.exportsFrom_append atLineStart before (d :: tail)
      rw [later, ← whole] at found
      have rest := ih.trans (Module.exportsFrom_suffix (d == '\n') inTail).sublist
      exact (rest.cons_cons written.name).trans found.sublist
  | case3 atLineStart c rest none ih => exact ih.trans (List.sublist_append_right _ _)

/-- The wrappers that are found in a text are exported by lines of it, in the same order. -/
theorem names_findAll (text : Text) :
    ((findAll text).map (·.name)).Sublist (Module.exports text) :=
  names_findFrom true text

end Found

end FoundWrapper

section Written

theorem docComment_line (docs : List Text) :
    Module.docComment docs 0 ++ ['\n'] =
      unlines ("/**".toList :: (docs.map (" * ".toList ++ ·) ++ [" */".toList])) := by
  have lines : docs.flatMap (Module.docLine []) = unlines (docs.map (" * ".toList ++ ·)) := by
    rw [unlines, List.flatMap_map]
    rfl
  have whole : Module.docComment docs 0 =
      "/**\n".toList ++ docs.flatMap (Module.docLine []) ++ " */".toList := by
    unfold Module.docComment
    simp
  rw [whole, lines]
  simp [unlines]

/-- The line that a wrapper is exported by. -/
def opening (name arguments type : Text) : Text :=
  "export const ".toList ++ (name ++ (" = async (".toList ++ (arguments ++ (')' ::
    (": Promise<".toList ++ (type ++ "> => \x7b".toList))))))

theorem opening_free {name arguments type : Text} (named : '\n' ∉ name) (taken : '\n' ∉ arguments)
    (typed : '\n' ∉ type) : '\n' ∉ opening name arguments type := by
  have first : '\n' ∉ "export const ".toList := by decide
  have second : '\n' ∉ " = async (".toList := by decide
  have third : '\n' ∉ ": Promise<".toList := by decide
  have last : '\n' ∉ "> => \x7b".toList := by decide
  unfold opening
  rw [List.mem_append, List.mem_append, List.mem_append, List.mem_append, List.mem_cons,
    List.mem_append, List.mem_append]
  rintro (here | here | here | here | here | here | here | here)
  · exact first here
  · exact named here
  · exact second here
  · exact taken here
  · exact absurd here (by decide)
  · exact third here
  · exact typed here
  · exact last here

theorem layout_line (name arguments type : Text) (lines : List Text) :
    layout name arguments type lines ++ ['\n'] =
      unlines (opening name arguments type :: (lines.map (' ' :: ·) ++ ["\x7d;".toList])) := by
  have body : bodyText lines ++ ['\n'] = '\n' :: unlines (lines.map (' ' :: ·)) := by
    induction lines with
    | nil => rfl
    | cons line lines ih =>
      have step : bodyText (line :: lines) = '\n' :: ' ' :: line ++ bodyText lines :=
        List.flatMap_cons
      rw [step, List.append_assoc, ih]
      simp [unlines]
  have ending : "\n\x7d;".toList ++ ['\n'] = ['\n'] ++ unlines ["\x7d;".toList] := rfl
  unfold layout
  simp only [List.append_assoc, List.cons_append]
  rw [ending, ← List.append_assoc (bodyText lines), body]
  have start : unlines (opening name arguments type ::
      (lines.map (' ' :: ·) ++ ["\x7d;".toList])) = opening name arguments type ++ '\n' ::
        (unlines (lines.map (' ' :: ·)) ++ unlines ["\x7d;".toList]) := by
    simp [unlines]
  rw [start]
  unfold opening
  simp only [List.append_assoc, List.cons_append]

end Written

namespace Wrapper

variable {wrapper : Wrapper} {parameters : List Parameter} {endpoint : Endpoint}
  {template : Text}

def docTexts (wrapper : Wrapper) (template : Text) : List Text :=
  docLines template wrapper.docContext ++ ["@operationId ".toList ++ wrapper.operation]

def statementLines (wrapper : Wrapper) (parameters : List Parameter) (endpoint : Endpoint) :
    List Text :=
  (wrapper.statements (Request.plan parameters endpoint) endpoint).map (' ' :: ·)

/-- The lines of a wrapper. -/
def textLines (wrapper : Wrapper) (parameters : List Parameter) (endpoint : Endpoint)
    (template : Text) : List Text :=
  ("/**".toList :: ((wrapper.docTexts template).map (" * ".toList ++ ·) ++ [" */".toList])) ++
    (opening wrapper.name wrapper.signature wrapper.resultType ::
      ((wrapper.statementLines parameters endpoint).map (' ' :: ·) ++ ["\x7d;".toList]))

theorem render_line (wrapper : Wrapper) (parameters : List Parameter) (endpoint : Endpoint)
    (template : Text) :
    wrapper.render parameters endpoint template ++ ['\n'] =
      unlines (wrapper.textLines parameters endpoint template) := by
  rw [textLines, unlines_append, ← docComment_line, ← layout_line, render_eq, List.append_assoc,
    List.append_assoc]
  rfl

theorem exportName?_opening {name : Text} (named : name.all isNameChar = true)
    (arguments type : Text) : Module.exportName? (opening name arguments type) = some name := by
  apply Module.exportName?_append named
  change (!isNameChar ' ') = true
  decide

/-- Of the lines of a wrapper one is an export. -/
theorem exports_textLines (named : wrapper.name.all isNameChar = true) :
    (wrapper.textLines parameters endpoint template).filterMap Module.exportName? =
      [wrapper.name] := by
  have doc : ∀ line ∈ "/**".toList :: ((wrapper.docTexts template).map (" * ".toList ++ ·) ++
      [" */".toList]), Module.exportName? line = none := by
    intro line member
    simp only [List.mem_cons, List.mem_append, List.mem_map, List.not_mem_nil, or_false] at member
    refine Module.exportName?_of_head ?_
    rcases member with rfl | ⟨_, _, rfl⟩ | rfl
    · exact fun same => absurd (Option.some.inj same) (by decide)
    · exact fun same => absurd (Option.some.inj same) (by decide)
    · exact fun same => absurd (Option.some.inj same) (by decide)
  have body : ∀ line ∈ (wrapper.statementLines parameters endpoint).map (' ' :: ·) ++
      ["\x7d;".toList], Module.exportName? line = none := by
    intro line member
    simp only [List.mem_cons, List.mem_append, List.mem_map, List.not_mem_nil, or_false] at member
    refine Module.exportName?_of_head ?_
    rcases member with ⟨_, _, rfl⟩ | rfl
    · exact fun same => absurd (Option.some.inj same) (by decide)
    · exact fun same => absurd (Option.some.inj same) (by decide)
  have first := exportName?_opening named wrapper.signature wrapper.resultType
  rw [textLines, List.filterMap_append, List.filterMap_eq_nil_iff.mpr doc, List.nil_append,
    List.filterMap_cons_some first, List.filterMap_eq_nil_iff.mpr body]

/-- A wrapper that takes over nothing that breaks a line. -/
structure Unbroken (wrapper : Wrapper) (parameters : List Parameter) (endpoint : Endpoint) :
    Prop where
  name : wrapper.name.all isNameChar = true
  operation : '\n' ∉ wrapper.operation
  method : wrapper.method ∈ Method.known
  params : ∀ type ∈ wrapper.paramsType, '\n' ∉ type
  body : ∀ type ∈ wrapper.bodyType, '\n' ∉ type
  result : '\n' ∉ wrapper.resultType
  path : '\n' ∉ endpoint.name
  keys : ∀ key ∈ Request.keysOf parameters endpoint, '\n' ∉ key

theorem Unbroken.statements (unbroken : wrapper.Unbroken parameters endpoint) :
    ∀ statement ∈ wrapper.statements (Request.plan parameters endpoint) endpoint,
      '\n' ∉ statement := by
  refine statements_free (fun binding inside => ⟨?_, ?_⟩) unbroken.path unbroken.method
    unbroken.result
  · refine List.all_eq_true.mpr fun c member => bne_iff_ne.mpr ?_
    rintro rfl
    exact unbroken.keys binding.key (Request.key_of_mem_plan inside) member
  · exact all_of_isBare (by decide) (Request.bare_of_mem_plan inside)

theorem docTexts_free (operation : '\n' ∉ wrapper.operation) :
    ∀ line ∈ wrapper.docTexts template, '\n' ∉ line := by
  intro line member
  rcases List.mem_append.mp member with filled | named
  · obtain ⟨part, listed, rfl⟩ := List.mem_map.mp (List.mem_filter.mp filled).1
    have free := not_mem_of_mem_lines listed
    exact not_mem_replace (fun inside => free ((trimEnd_opens part).subset inside)) (by decide)
  · rw [List.mem_singleton.mp named]
    simp [operation]

theorem signature_free (params : ∀ type ∈ wrapper.paramsType, '\n' ∉ type)
    (body : ∀ type ∈ wrapper.bodyType, '\n' ∉ type) : '\n' ∉ wrapper.signature := by
  refine not_mem_join (by decide) fun part member => ?_
  simp only [List.mem_append, Option.mem_toList, Option.map_eq_some_iff] at member
  rcases member with ⟨type, present, rfl⟩ | ⟨type, present, rfl⟩
  · simp [typed, params type present]
  · simp [typed, body type present]

theorem textLines_free (unbroken : wrapper.Unbroken parameters endpoint) :
    ∀ line ∈ wrapper.textLines parameters endpoint template, '\n' ∉ line := by
  have arguments := signature_free unbroken.params unbroken.body
  have name : '\n' ∉ wrapper.name := fun member =>
    absurd (List.all_eq_true.mp unbroken.name '\n' member) (by decide)
  intro line member
  rcases List.mem_append.mp member with doc | code
  · simp only [List.mem_cons, List.mem_append, List.mem_map, List.not_mem_nil, or_false] at doc
    rcases doc with rfl | ⟨text, listed, rfl⟩ | rfl
    · decide
    · simp [docTexts_free unbroken.operation text listed]
    · decide
  · simp only [List.mem_cons, List.mem_append, List.mem_map, statementLines, List.not_mem_nil,
      or_false] at code
    rcases code with rfl | ⟨_, ⟨statement, listed, rfl⟩, rfl⟩ | rfl
    · exact opening_free name arguments unbroken.result
    · simp [unbroken.statements statement listed]
    · decide

theorem render_eq_join (wrapper : Wrapper) (parameters : List Parameter) (endpoint : Endpoint)
    (template : Text) :
    wrapper.render parameters endpoint template =
      join "\n" (wrapper.textLines parameters endpoint template) := by
  have line := render_line wrapper parameters endpoint template
  have filled : wrapper.textLines parameters endpoint template ≠ [] := List.cons_ne_nil _ _
  rw [← join_unlines filled] at line
  exact List.append_cancel_right line

end Wrapper

namespace Module

/-- An import is one line, which is no export. -/
theorem importLine?_written {names : List Text} {source line : Text} {typeOnly : Bool}
    (present : importLine? names source typeOnly = some line) (named : ∀ name ∈ names, '\n' ∉ name)
    (free : '\n' ∉ source) :
    '\n' ∉ line ∧ line.head? = some 'i' ∧ line.getLast? = some ';' := by
  unfold importLine? at present
  split at present
  · contradiction
  · rename_i name more sorted
    have listed : '\n' ∉ join ", " (name :: more) := by
      refine not_mem_join (by decide) fun other member => named other ?_
      rw [← sorted] at member
      exact Table.mem_sorted.mp member
    cases present
    refine ⟨?_, ?_, ?_⟩
    · simp only [List.mem_append, not_or]
      refine ⟨⟨⟨⟨⟨?_, by decide⟩, listed⟩, by decide⟩, free⟩, by decide⟩
      cases typeOnly <;> decide
    · cases typeOnly <;> rfl
    · rw [List.getLast?_append]
      rfl

/-- The exports of a module are those of its sections. -/
theorem exports_assemble {sections : List (List Text)} (filled : ∀ lines ∈ sections, lines ≠ [])
    (closed : ∀ lines ∈ sections, (join "\n" lines).getLast? = some ';')
    (free : ∀ lines ∈ sections, ∀ line ∈ lines, '\n' ∉ line) :
    exports (assemble (sections.map (join "\n"))) =
      sections.flatMap (List.filterMap exportName?) := by
  have ends : ∀ body ∈ sections.map (join "\n"), body.getLast? = some ';' := by
    intro body member
    obtain ⟨lines, listed, rfl⟩ := List.mem_map.mp member
    exact closed lines listed
  have parts : (sections.map (join "\n")).flatMap (fun body => '\n' :: body ++ ['\n']) =
      unlines (sections.flatMap ([] :: ·)) := by
    rw [unlines, List.flatMap_assoc, List.flatMap_map]
    refine List.flatMap_congr fun lines listed => ?_
    rw [List.cons_append, join_unlines (filled lines listed)]
    rfl
  have whole : assemble (sections.map (join "\n")) =
      unlines (header :: sections.flatMap ([] :: ·)) := by
    rw [DomainApi.assemble_eq ends, parts]
    simp [unlines]
  have unbroken : ∀ line ∈ header :: sections.flatMap ([] :: ·), '\n' ∉ line := by
    intro line member
    rcases List.mem_cons.mp member with rfl | inside
    · decide
    · obtain ⟨lines, listed, here⟩ := List.mem_flatMap.mp inside
      rcases List.mem_cons.mp here with rfl | here
      · exact List.not_mem_nil
      · exact free lines listed line here
  have first : exportName? header = none :=
    exportName?_of_head fun same => absurd (Option.some.inj same) (by decide)
  rw [whole, exports_unlines unbroken, List.filterMap_cons_none first, List.filterMap_flatMap]
  rfl

end Module

theorem AliasKind.aliasName_free {id : Text} (free : '\n' ∉ id) (kind : AliasKind) :
    '\n' ∉ kind.aliasName id := by
  have ending : '\n' ∉ kind.ending := by cases kind <;> decide
  simp [AliasKind.aliasName, free, ending]

namespace DomainApi

variable {config : Config} {operations : List OperationTypes}

/-- Verbs are written in the characters of names, and nothing else that wrappers take over breaks a
line. -/
structure Unbroken (config : Config) (operations : List OperationTypes) : Prop where
  verbs : ∀ entry ∈ config.verbs.entries, entry.2.all isNameChar = true
  runtime : '\n' ∉ config.imports.runtime
  ids : ∀ types ∈ operations, '\n' ∉ types.id
  placeholders : ∀ types ∈ operations, ∀ key ∈ Path.placeholders types.path, '\n' ∉ key
  parameters : ∀ types ∈ operations, ∀ parameter ∈ types.parameters,
    parameter.location ≠ .query → '\n' ∉ parameter.name

instance (config : Config) (operations : List OperationTypes) :
    Decidable (Unbroken config operations) :=
  decidable_of_iff ((∀ entry ∈ config.verbs.entries, entry.2.all isNameChar = true) ∧
      '\n' ∉ config.imports.runtime ∧ (∀ types ∈ operations, '\n' ∉ types.id) ∧
      (∀ types ∈ operations, ∀ key ∈ Path.placeholders types.path, '\n' ∉ key) ∧
      ∀ types ∈ operations, ∀ parameter ∈ types.parameters,
        parameter.location ≠ .query → '\n' ∉ parameter.name)
    ⟨fun ⟨verbs, runtime, ids, placeholders, parameters⟩ =>
      ⟨verbs, runtime, ids, placeholders, parameters⟩,
      fun ⟨verbs, runtime, ids, placeholders, parameters⟩ =>
        ⟨verbs, runtime, ids, placeholders, parameters⟩⟩

/-- Each wrapper with its operation and the endpoint planned for that. -/
def wrapped (config : Config) (operations : List OperationTypes) :
    List (Wrapper × OperationTypes × Endpoint) :=
  (wrappersOf config.verbs operations).zip (operations.zip (Endpoint.plan operations))

theorem map_fst_wrapped (config : Config) (operations : List OperationTypes) :
    (wrapped config operations).map (·.1) = wrappersOf config.verbs operations := by
  have planned : (Endpoint.plan operations).length = operations.length := by
    have same := congrArg List.length (Endpoint.operations_plan operations)
    simpa using same
  refine List.map_fst_zip (Nat.le_of_eq ?_)
  rw [length_wrappersOf, List.length_zip, planned, Nat.min_self]

theorem all_wrapperName (verbs : ∀ entry ∈ config.verbs.entries, entry.2.all isNameChar = true)
    {method : Method} (known : method ∈ Method.known) (path : Text) :
    (config.verbs.wrapperName method path).all isNameChar = true := by
  have lower : ∀ method ∈ Method.known, method.lowerName.all isNameChar = true := by
    decide
  have verb : (config.verbs.verbFor method).all isNameChar = true := by
    unfold VerbPrefixes.verbFor
    cases found : config.verbs.entries.lookup method.lowerName with
    | none => exact lower method known
    | some verb =>
      exact verbs (method.lowerName, verb) (Table.mem_of_lookup found)
  have words : (Path.pascalName path).all isNameChar = true :=
    all_imp (fun c word => isNameChar_of_isBare c (isBare_of_isAlphanum c word))
      (VerbPrefixes.all_pascalName path)
  rw [VerbPrefixes.wrapperName, List.all_append, verb, words]
  rfl

theorem unbroken_of_mem_wrapped (unbroken : Unbroken config operations)
    (known : ∀ types ∈ operations, types.method ∈ Method.known) {wrapper : Wrapper}
    {types : OperationTypes} {endpoint : Endpoint}
    (member : (wrapper, types, endpoint) ∈ wrapped config operations) :
    wrapper.Unbroken types.parameters endpoint := by
  obtain ⟨⟨name, named, rfl⟩, planned⟩ := mem_zip_of_zipWith member
  obtain ⟨listed, inPlan⟩ := List.of_mem_zip planned
  have aliasFree (kind : AliasKind) : '\n' ∉ types.nameOf kind :=
    AliasKind.aliasName_free (unbroken.ids types listed) kind
  constructor
  case name =>
    refine all_of_mem_uniques (fun c digit => isNameChar_of_isBare c (isBare_of_isDigit c digit))
      ?_ named
    intro base based
    obtain ⟨other, inside, rfl⟩ := List.mem_map.mp based
    exact all_wrapperName unbroken.verbs (known other inside) other.path
  case operation => exact unbroken.ids types listed
  case method => exact known types listed
  case params =>
    intro type present
    obtain ⟨_, _, rfl⟩ := Option.map_eq_some_iff.mp present
    exact aliasFree .params
  case body =>
    intro type present
    obtain ⟨_, _, rfl⟩ := Option.map_eq_some_iff.mp present
    exact aliasFree .body
  case result =>
    change '\n' ∉ types.resultType
    unfold OperationTypes.resultType
    split
    · exact aliasFree .payload
    · split
      · decide
      · exact aliasFree .response
  case path => exact no_line_end_of_quiet (quiet_of_isCapital (Endpoint.capital_of_mem_plan inPlan))
  case keys =>
    intro key inside
    rw [Request.keysOf, Endpoint.placeholders_of_mem_zip planned] at inside
    simp only [List.mem_append] at inside
    rcases inside with (placeholder | unused) | header
    · exact unbroken.placeholders types listed key placeholder
    · obtain ⟨parameter, own, rfl, located⟩ := Request.mem_namesAt.mp (List.mem_filter.mp unused).1
      exact unbroken.parameters types listed parameter own (by simp [located])
    · obtain ⟨parameter, own, rfl, located⟩ := Request.mem_namesAt.mp header
      exact unbroken.parameters types listed parameter own (by simp [located])

/-- The import lines of a module of wrappers. -/
def importLines (config : Config) (operations : List OperationTypes) : List Text :=
  [Module.importLine? runtimeNames config.imports.runtime false,
    Module.importLine? ((Endpoint.plan operations).map (·.name))
      ArtifactKind.endpoints.siblingModule false,
    Module.importLine? ((wrappersOf config.verbs operations).flatMap Wrapper.typeNames)
      ArtifactKind.validatedTypes.siblingModule true].filterMap id

theorem importLines_written (unbroken : Unbroken config operations)
    (known : ∀ types ∈ operations, types.method ∈ Method.known) :
    ∀ line ∈ importLines config operations,
      '\n' ∉ line ∧ line.head? = some 'i' ∧ line.getLast? = some ';' := by
  intro line member
  simp only [importLines, List.mem_filterMap, List.mem_cons, List.not_mem_nil, or_false, id]
    at member
  obtain ⟨source, rfl | rfl | rfl, found⟩ := member
  · exact Module.importLine?_written found (by decide) unbroken.runtime
  · refine Module.importLine?_written found (fun name named => ?_) (by decide)
    obtain ⟨endpoint, inPlan, rfl⟩ := List.mem_map.mp named
    exact no_line_end_of_quiet (quiet_of_isCapital (Endpoint.capital_of_mem_plan inPlan))
  · refine Module.importLine?_written found (fun name named => ?_) (by decide)
    obtain ⟨wrapper, listed, typed⟩ := List.mem_flatMap.mp named
    rw [← map_fst_wrapped] at listed
    obtain ⟨⟨_, types, endpoint⟩, inside, rfl⟩ := List.mem_map.mp listed
    have own := unbroken_of_mem_wrapped unbroken known inside
    simp only [Wrapper.typeNames, List.mem_append, Option.mem_toList] at typed
    rcases typed with (params | body) | result
    · exact own.params name params
    · exact own.body name body
    · split at result
      · contradiction
      · rw [List.mem_singleton.mp result]
        exact own.result

/-- Where nothing breaks a line, a module of wrappers exports them and nothing else. -/
theorem exports_ofPlan (unbroken : Unbroken config operations)
    (known : ∀ types ∈ operations, types.method ∈ Method.known) :
    Module.exports (ofPlan config operations).content =
      (ofPlan config operations).wrappers.map (·.name) := by
  by_cases none : operations = []
  · rw [ofPlan, if_pos none]
    decide
  have written := importLines_written unbroken known
  have present : importLines config operations ≠ [] := by
    obtain ⟨line, first⟩ := Option.isSome_iff_exists.mp (show (Module.importLine? runtimeNames
      config.imports.runtime false).isSome = true from rfl)
    simp [importLines, first]
  let texts (found : Wrapper × OperationTypes × Endpoint) : List Text :=
    found.1.textLines found.2.1.parameters found.2.2 config.templates.wrapper
  have own : ∀ found ∈ wrapped config operations,
      found.1.Unbroken found.2.1.parameters found.2.2 := fun _ member =>
    unbroken_of_mem_wrapped unbroken known member
  have content : (ofPlan config operations).content = Module.assemble
      ((importLines config operations :: (wrapped config operations).map texts).map
        (join "\n")) := by
    have blocks : blocksOf config operations (Endpoint.plan operations) =
        ((wrapped config operations).map texts).map (join "\n") := by
      rw [List.map_map]
      exact List.map_congr_left fun found _ => Wrapper.render_eq_join ..
    rw [ofPlan, if_neg none, blocks]
    rfl
  have listed : ∀ lines ∈ (wrapped config operations).map texts,
      ∃ found ∈ wrapped config operations, lines = texts found := by
    intro lines member
    obtain ⟨found, inside, rfl⟩ := List.mem_map.mp member
    exact ⟨found, inside, rfl⟩
  rw [content, Module.exports_assemble]
  case filled =>
    intro lines member
    rcases List.mem_cons.mp member with rfl | block
    · exact present
    · obtain ⟨_, _, rfl⟩ := listed lines block
      exact List.cons_ne_nil _ _
  case closed =>
    intro lines member
    rcases List.mem_cons.mp member with rfl | block
    · exact getLast?_join present fun line inside => (written line inside).2.2
    · obtain ⟨found, _, rfl⟩ := listed lines block
      exact Wrapper.render_eq_join .. ▸ found.1.getLast?_render ..
  case free =>
    intro lines member
    rcases List.mem_cons.mp member with rfl | block
    · exact fun line inside => (written line inside).1
    · obtain ⟨found, inside, rfl⟩ := listed lines block
      exact Wrapper.textLines_free (own found inside)
  have imported : (importLines config operations).filterMap Module.exportName? = [] := by
    refine List.filterMap_eq_nil_iff.mpr fun line member => Module.exportName?_of_head ?_
    rw [(written line member).2.1]
    exact fun same => absurd (Option.some.inj same) (by decide)
  have blocks : ((wrapped config operations).map texts).flatMap
      (List.filterMap Module.exportName?) = (wrapped config operations).map (·.1.name) := by
    rw [List.flatMap_map, List.map_eq_flatMap]
    exact List.flatMap_congr fun found member => Wrapper.exports_textLines (own found member).name
  rw [List.flatMap_cons, imported, List.nil_append, blocks, ofPlan, if_neg none,
    ← map_fst_wrapped, List.map_map]
  rfl

end DomainApi

end TypedClient
