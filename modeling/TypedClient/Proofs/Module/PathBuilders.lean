import Mathlib.Data.List.Forall2
import TypedClient.Proofs.Module.Allocation
import TypedClient.Proofs.Module.Declarations
import TypedClient.Proofs.Table

/-!
Path builders and the paths they build. A builder is read from its line as the name, the parameters
and the template literal of a function. Main statement: the builder of an operation takes one parameter
for each placeholder, and what it returns is the path with the arguments in the places of the
placeholders in turn.
-/

namespace TypedClient

open Text Name

namespace Path

/-- A path with these texts in the places of its placeholders in turn. -/
def fill (values : List Text) : List Part → Text
  | [] => []
  | .literal text :: rest => text ++ fill values rest
  | .placeholder _ :: rest => values.headD [] ++ fill values.tail rest

def Part.name? : Part → Option Text
  | .literal _ => none
  | .placeholder name => some name

def inBraces (name : Text) : Text := '{' :: name ++ ['}']

/-- Literal text at both ends and between any two placeholders. -/
inductive Alternating : List Part → Prop
  | last (text : Text) : Alternating [.literal text]
  | next (text name : Text) {rest : List Part} (later : Alternating rest) :
      Alternating (.literal text :: .placeholder name :: rest)

section Parts

variable {c : Char} {path text name after : Text} {values : List Text} {found : List Part}

theorem placeholders_eq (path : Text) : placeholders path = (parts path).filterMap Part.name? := by
  apply List.filterMap_congr
  intro part _
  cases part <;> rfl

theorem eq_of_placeholder? (read : placeholder? text = some (name, after)) :
    text = inBraces name ++ after := by
  unfold placeholder? at read
  split at read
  · rename_i rest
    split at read
    · rename_i front behind
      have whole := List.takeWhile_append_dropWhile (p := isPlaceholderChar) (l := rest)
      rw [front, behind] at whole
      cases read
      rw [inBraces, ← whole, List.append_assoc]
      rfl
    · contradiction
  · contradiction

theorem alternating_consLiteral (alternating : Alternating found) :
    Alternating (consLiteral c found) := by
  cases alternating with
  | last text => exact .last (c :: text)
  | next text name later => exact .next (c :: text) name later

theorem alternating_parts (path : Text) : Alternating (parts path) := by
  fun_induction parts path with
  | case1 => exact .last []
  | case2 c rest name after _ later => exact .next [] name later
  | case3 c rest _ ih => exact alternating_consLiteral ih

theorem name?_consLiteral (c : Char) (found : List Part) :
    (consLiteral c found).filterMap Part.name? = found.filterMap Part.name? := by
  unfold consLiteral
  split <;> rfl

theorem fill_consLiteral (values : List Text) (c : Char) (found : List Part) :
    fill values (consLiteral c found) = c :: fill values found := by
  unfold consLiteral
  split <;> rfl

/-- A path is filled by its own placeholders. -/
theorem fill_placeholders (path : Text) :
    fill ((placeholders path).map inBraces) (parts path) = path := by
  rw [placeholders_eq]
  fun_induction parts path with
  | case1 => rfl
  | case2 c rest name after read ih =>
    calc fill (inBraces name :: ((parts after).filterMap Part.name?).map inBraces)
          (.literal [] :: .placeholder name :: parts after)
        = inBraces name ++ fill (((parts after).filterMap Part.name?).map inBraces)
            (parts after) := rfl
      _ = inBraces name ++ after := by rw [ih]
      _ = c :: rest := (eq_of_placeholder? read).symm
  | case3 c rest _ ih => rw [name?_consLiteral, fill_consLiteral, ih]

end Parts

end Path

/-- What a template literal is made of. -/
inductive Chunk
  | char (c : Char)
  | argument (name : Text)
  deriving DecidableEq, Repr

namespace Chunk

def argument? : Chunk → Option Text
  | char _ => none
  | argument name => some name

/-- What a chunk stands for. -/
def value? (lookup : Text → Option Text) : Chunk → Option Text
  | char c => some [c]
  | argument name => lookup name

/-- The text that chunks stand for together, unless one of them has no value. -/
def values? (lookup : Text → Option Text) : List Chunk → Option Text
  | [] => some []
  | chunk :: rest =>
    (chunk.value? lookup).bind fun value => (values? lookup rest).map (value ++ ·)

/-- Puts a chunk in front of those that were read. -/
def inFront (chunk : Chunk) : List Chunk × Text → List Chunk × Text
  | (chunks, after) => (chunk :: chunks, after)

theorem values?_chars (lookup : Text → Option Text) (text : Text) (chunks : List Chunk) :
    values? lookup (text.map char ++ chunks) = (values? lookup chunks).map (text ++ ·) := by
  induction text with
  | nil => simp
  | cons c text ih =>
    have first : values? lookup ((c :: text).map char ++ chunks) =
        (values? lookup (text.map char ++ chunks)).map (c :: ·) := rfl
    rw [first, ih, Option.map_map]
    rfl

end Chunk

namespace Text

/-- The chunks of a template literal up to the backtick that closes it, and what follows that backtick.
A backslash stands for the character behind it, and `${name}` for the argument of that name. -/
def readTemplate? (text : Text) : Option (List Chunk × Text) :=
  match text with
  | [] => none
  | ['\\'] => none
  | '\x60' :: rest => some ([], rest)
  | '\\' :: c :: rest => (readTemplate? rest).map (Chunk.char c).inFront
  | '$' :: '{' :: rest =>
    match _found : cut? '}' rest with
    | some (name, after) => (readTemplate? after).map (Chunk.argument name).inFront
    | none => none
  | c :: rest => (readTemplate? rest).map (Chunk.char c).inFront
termination_by text.length
decreasing_by
  all_goals simp only [List.length_cons]
  · omega
  · have shorter := cut?_length _found
    omega
  · omega

section Escaped

variable {c : Char} {text name rest : Text}

theorem readTemplate?_escaped (c : Char) (rest : Text) :
    readTemplate? ('\\' :: c :: rest) = (readTemplate? rest).map (Chunk.char c).inFront := by
  rw [readTemplate?]

theorem readTemplate?_plain (other : c ≠ '\\' ∧ c ≠ '\x60') (single : c = '$' → rest.head? ≠ some '{') :
    readTemplate? (c :: rest) = (readTemplate? rest).map (Chunk.char c).inFront := by
  rw [readTemplate?]
  · exact fun slash => absurd slash other.1
  · exact other.2
  · exact fun _ _ slash => absurd slash other.1
  · rintro _ dollar rfl
    exact single dollar rfl

theorem readTemplate?_argument (free : '}' ∉ name) (rest : Text) :
    readTemplate? (['$', '{'] ++ name ++ ['}'] ++ rest) =
      (readTemplate? rest).map (Chunk.argument name).inFront := by
  have found : cut? '}' (name ++ '}' :: rest) = some (name, rest) := cut?_append free rest
  have whole : ['$', '{'] ++ name ++ ['}'] ++ rest = '$' :: '{' :: (name ++ '}' :: rest) := by simp
  rw [whole, readTemplate?]
  split
  · rename_i read
    rw [found] at read
    cases read
    rfl
  · rename_i read
    rw [found] at read
    contradiction

end Escaped

end Text

namespace Endpoint

variable {c : Char} {text rest : Text}

def isSlashOrBacktick (c : Char) : Bool := c == '\\' || c == '\x60'

/-- Whether a character gets a backslash in a template literal, where this text follows it. -/
def isMarked (c : Char) (text : Text) : Bool :=
  isSlashOrBacktick c || c == '$' && text.head? == some '{'

/-- Keeps substitutions from being read in literal text. -/
def breakSubstitutions (text : Text) : Text := replace ['$', '{'] ['\\', '$', '{'] text

theorem breakSubstitutions_cons (apart : c = '$' → text.head? ≠ some '{') :
    breakSubstitutions (c :: text) = c :: breakSubstitutions text := by
  have closed : ¬ ['$', '{'].isPrefixOf (c :: text) = true := by
    intro opens
    obtain ⟨rest, whole⟩ := List.isPrefixOf_iff_prefix.mp opens
    cases whole
    exact apart rfl rfl
  rw [breakSubstitutions, replace, if_neg closed, breakSubstitutions]

theorem breakSubstitutions_opening (text : Text) :
    breakSubstitutions ('$' :: '{' :: text) =
      '\\' :: '$' :: breakSubstitutions ('{' :: text) := by
  have opens : ['$', '{'].isPrefixOf ('$' :: '{' :: text) = true := rfl
  have brace : '{' = '$' → text.head? ≠ some '{' := fun same => absurd same (by decide)
  rw [breakSubstitutions_cons brace, breakSubstitutions, replace, if_pos opens]
  rfl

theorem head?_escape {special : Char → Bool} {mark : Char} (other : mark ≠ '\\')
    (apart : text.head? ≠ some mark) : (escape special text).head? ≠ some mark := by
  cases text with
  | nil => exact apart
  | cons c text =>
    rw [escape_cons]
    by_cases marked : special c = true
    · rw [if_pos marked]
      exact fun same => other (Option.some.inj same).symm
    · rw [if_neg marked]
      exact apart

theorem escapeTemplate_eq (text : Text) :
    escapeTemplate text = breakSubstitutions (escape isSlashOrBacktick text) := rfl

theorem escapeTemplate_nil : escapeTemplate [] = [] := by
  rw [escapeTemplate_eq, breakSubstitutions]
  exact replace_of_absent List.not_mem_nil

theorem escapeTemplate_cons (c : Char) (text : Text) :
    escapeTemplate (c :: text) =
      (if isMarked c text then ['\\', c] else [c]) ++ escapeTemplate text := by
  rw [escapeTemplate_eq, escapeTemplate_eq, escape_cons]
  by_cases special : isSlashOrBacktick c = true
  · have other : c ≠ '$' := by
      rintro rfl
      contradiction
    have marked : isMarked c text = true := by rw [isMarked, special, Bool.true_or]
    rw [if_pos special, if_pos marked, List.cons_append, List.cons_append, List.nil_append,
      breakSubstitutions_cons fun same => absurd same (by decide),
      breakSubstitutions_cons fun same => absurd same other]
    rfl
  rw [if_neg special, List.cons_append, List.nil_append]
  by_cases opens : c = '$' ∧ text.head? = some '{'
  · obtain ⟨rfl, brace⟩ := opens
    obtain ⟨rest, rfl⟩ := List.head?_eq_some_iff.mp brace
    exact breakSubstitutions_opening _
  · have unmarked : isMarked c text = false := by
      simp [isMarked, isSlashOrBacktick] at *
      exact ⟨special, opens⟩
    have apart : c = '$' → (escape isSlashOrBacktick text).head? ≠ some '{' := by
      intro dollar
      apply head?_escape (by decide)
      exact fun brace => opens ⟨dollar, brace⟩
    rw [unmarked, breakSubstitutions_cons apart]
    rfl

variable {chunks : List Chunk} {after : Text} {names : List Text} {parts : List Path.Part}

theorem head?_escapeTemplate (apart : text.head? ≠ some '{') (following : rest.head? ≠ some '{') :
    (escapeTemplate text ++ rest).head? ≠ some '{' := by
  cases text with
  | nil => rwa [escapeTemplate_nil]
  | cons c text =>
    rw [escapeTemplate_cons]
    by_cases marked : isMarked c text = true
    · rw [if_pos marked]
      exact fun same => absurd (Option.some.inj same) (by decide)
    · rw [if_neg marked]
      exact apart

/-- Literal text is read back in front of whatever does not start with an opening brace. -/
theorem readTemplate?_escapeTemplate (apart : rest.head? ≠ some '{')
    (behind : readTemplate? rest = some (chunks, after)) (text : Text) :
    readTemplate? (escapeTemplate text ++ rest) = some (text.map Chunk.char ++ chunks, after) := by
  induction text with
  | nil => rwa [escapeTemplate_nil]
  | cons c text ih =>
    rw [escapeTemplate_cons, List.append_assoc]
    by_cases marked : isMarked c text = true
    · rw [if_pos marked, List.cons_append, List.cons_append, List.nil_append,
        readTemplate?_escaped, ih]
      rfl
    · have unmarked : isSlashOrBacktick c = false ∧
          (c == '$' && text.head? == some '{') = false := by
        simpa only [isMarked, Bool.not_eq_true, Bool.or_eq_false_iff] using marked
      have other : c ≠ '\\' ∧ c ≠ '\x60' := by
        simpa [isSlashOrBacktick] using unmarked.1
      have single : c = '$' → (escapeTemplate text ++ rest).head? ≠ some '{' := by
        intro dollar
        apply head?_escapeTemplate ?_ apart
        simpa [dollar] using unmarked.2
      rw [if_neg marked, List.cons_append, List.nil_append, readTemplate?_plain other single, ih]
      rfl

/-- The chunks of the parts of a path, where the placeholders take these names in turn. -/
def chunksOf (names : List Text) : List Path.Part → List Chunk
  | [] => []
  | .literal text :: rest => text.map Chunk.char ++ chunksOf names rest
  | .placeholder _ :: rest => .argument (names.headD []) :: chunksOf names.tail rest

theorem readTemplate?_template (alternating : Path.Alternating parts)
    (free : ∀ name ∈ names, '}' ∉ name) (after : Text) :
    readTemplate? (template names parts ++ '\x60' :: after) = some (chunksOf names parts, after) := by
  induction alternating generalizing names with
  | last text =>
    have closes : readTemplate? ('\x60' :: after) = some ([], after) := by rw [readTemplate?]
    have apart : ('\x60' :: after).head? ≠ some '{' := fun same =>
      absurd (Option.some.inj same) (by decide)
    have literal := readTemplate?_escapeTemplate apart closes text
    rw [template, template, List.append_nil, literal]
    rfl
  | next text placeholder later ih =>
    rename_i rest
    have first : '}' ∉ names.headD [] := by
      cases names with
      | nil => exact List.not_mem_nil
      | cons name names => exact free name List.mem_cons_self
    have behind := ih fun name member => free name (List.mem_of_mem_tail member)
    have argument := readTemplate?_argument first (template names.tail rest ++ '\x60' :: after)
    rw [behind, Option.map_some] at argument
    have literal := readTemplate?_escapeTemplate (fun same => absurd same (by simp)) argument text
    rw [template, template, List.append_assoc, List.append_assoc, literal]
    rfl

theorem argument?_chunksOf (parts : List Path.Part)
    (enough : (parts.filterMap Path.Part.name?).length = names.length) :
    (chunksOf names parts).filterMap Chunk.argument? = names := by
  induction parts generalizing names with
  | nil => exact (List.length_eq_zero_iff.mp enough.symm).symm
  | cons part rest ih =>
    cases part with
    | literal text =>
      have plain : (text.map Chunk.char).filterMap Chunk.argument? = [] := by
        rw [List.filterMap_map]
        exact List.filterMap_none text
      rw [chunksOf, List.filterMap_append, plain, List.nil_append]
      exact ih enough
    | placeholder placeholder =>
      cases names with
      | nil => contradiction
      | cons name names => exact congrArg (name :: ·) (ih (Nat.succ.inj enough))

theorem values?_chunksOf {lookup : Text → Option Text} {arguments : List Text}
    (bound : List.Forall₂ (fun name argument => lookup name = some argument) names arguments)
    (parts : List Path.Part)
    (enough : (parts.filterMap Path.Part.name?).length = names.length) :
    Chunk.values? lookup (chunksOf names parts) = some (Path.fill arguments parts) := by
  induction parts generalizing names arguments with
  | nil => rfl
  | cons part rest ih =>
    cases part with
    | literal text =>
      rw [chunksOf, Chunk.values?_chars, ih bound enough]
      rfl
    | placeholder placeholder =>
      cases bound with
      | nil => contradiction
      | cons first bound =>
        have later := ih bound (Nat.succ.inj enough)
        rw [chunksOf, Chunk.values?, Chunk.value?, List.headD_cons, List.tail_cons, first, later]
        rfl

end Endpoint

theorem Table.lookup_zip {names arguments : List Text} (distinct : names.Nodup)
    (length : names.length = arguments.length) :
    List.Forall₂ (fun name argument => (names.zip arguments).lookup name = some argument) names
      arguments := by
  apply List.forall₂_iff_zip.mpr
  refine ⟨length, fun {name argument} paired => ?_⟩
  have keys : (names.zip arguments).map (·.1) = names := List.map_fst_zip (Nat.le_of_eq length)
  apply Table.lookup_of_mem ?_ paired
  rwa [keys]

/-- A function from texts to a text, as an exported constant. -/
structure PathBuilder where
  name : Text
  parameters : List Text
  template : List Chunk
  deriving DecidableEq, Repr

namespace PathBuilder

open FoundWrapper

/-- The names of a list of parameters. -/
def parameterNames (parameters : Text) : List Text :=
  (parameters.splitOn ',').map fun parameter => (trimStart parameter).takeWhile isNameChar

/-- Reads a builder from the line that exports it, if its template literal ends the statement. -/
def read? (line : Text) : Option PathBuilder := do
  let declared ← "export const ".toList.isPrefixOf? line
  let function ← " = (".toList.isPrefixOf? (declared.dropWhile isNameChar)
  let (parameters, result) ← cut? ')' function
  let literal ← " => \x60".toList.isPrefixOf? result
  let (template, after) ← readTemplate? literal
  if after = ";" then
    some ⟨declared.takeWhile isNameChar, parameterNames parameters, template⟩
  else none

/-- What a builder returns for these arguments. -/
def result? (builder : PathBuilder) (arguments : List Text) : Option Text :=
  Chunk.values? (fun name => (builder.parameters.zip arguments).lookup name) builder.template

variable {name : Text} {names : List Text}

theorem takeWhile_parameterText (bare : name.all isBare = true) (blanks : Text)
    (blank : blanks.all isBlank = true) :
    (trimStart (blanks ++ Endpoint.parameterText name)).takeWhile isNameChar = name := by
  have solid : name.all (fun c => !isBlank c) = true := all_of_isBare (by decide) bare
  have starts : (Endpoint.parameterText name).head?.all (fun c => !isBlank c) = true := by
    cases name with
    | nil => rfl
    | cons c rest =>
      rw [Endpoint.parameterText, head?_append_of_ne_nil (List.cons_ne_nil c rest)]
      exact head?_all_of_all solid
  have stops : (": string | number".toList).head?.all (fun c => !isNameChar c) = true := by decide
  rw [trimStart, dropWhile_append_of_stop blanks blank starts]
  exact takeWhile_append_of_stop name (all_imp isNameChar_of_isBare bare) stops

theorem comma_not_mem_parameterText (bare : name.all isBare = true) :
    ',' ∉ Endpoint.parameterText name := by
  have free : ',' ∉ name := all_ne_iff.mp (all_of_isBare (by decide) bare)
  rw [Endpoint.parameterText, List.mem_append, not_or]
  exact ⟨free, by decide⟩

theorem parameterNames_join (filled : names ≠ []) (bare : ∀ name ∈ names, name.all isBare = true) :
    parameterNames (join ", " (names.map Endpoint.parameterText)) = names := by
  obtain ⟨first, more, rfl⟩ := List.exists_cons_of_ne_nil filled
  have own := bare first List.mem_cons_self
  have others : ∀ name ∈ more, name.all isBare = true :=
    fun name member => bare name (List.mem_cons_of_mem first member)
  have commas : join ", " ((first :: more).map Endpoint.parameterText) =
      join [','] (Endpoint.parameterText first ::
        more.map fun name => [' '] ++ Endpoint.parameterText name) := by
    rw [List.map_cons, join_cons, join_cons, List.flatMap_map, List.flatMap_map]
    rfl
  have free : ∀ part ∈ Endpoint.parameterText first ::
      more.map (fun name => [' '] ++ Endpoint.parameterText name), ',' ∉ part := by
    intro part member
    rcases List.mem_cons.mp member with rfl | member
    · exact comma_not_mem_parameterText own
    · obtain ⟨name, listed, rfl⟩ := List.mem_map.mp member
      rw [List.mem_append, not_or]
      exact ⟨by decide, comma_not_mem_parameterText (others name listed)⟩
  rw [parameterNames, commas, join, List.splitOn_intercalate ',' free (List.cons_ne_nil _ _),
    List.map_cons, List.map_map]
  apply congrArg₂ List.cons
  · exact takeWhile_parameterText own [] rfl
  · calc _ = more.map id := by
          apply List.map_congr_left
          intro name member
          exact takeWhile_parameterText (others name member) [' '] (by decide)
      _ = more := List.map_id more

theorem parenthesis_not_mem_join (bare : ∀ name ∈ names, name.all isBare = true) :
    ')' ∉ join ", " (names.map Endpoint.parameterText) := by
  apply not_mem_join (by decide)
  intro part member
  obtain ⟨name, listed, rfl⟩ := List.mem_map.mp member
  have free : ')' ∉ name := all_ne_iff.mp (all_of_isBare (by decide) (bare name listed))
  rw [Endpoint.parameterText, List.mem_append, not_or]
  exact ⟨free, by decide⟩

/-- A builder is read back from its line. -/
theorem read?_render {endpoint : Endpoint} (dynamic : endpoint.isDynamic = true)
    (named : endpoint.name.all isCapital = true)
    (bare : ∀ name ∈ endpoint.placeholders.map (·.2), name.all isBare = true) :
    read? endpoint.render = some ⟨endpoint.name, endpoint.placeholders.map (·.2),
      Endpoint.chunksOf (endpoint.placeholders.map (·.2)) (Path.parts endpoint.path)⟩ := by
  have filled : endpoint.placeholders.map (·.2) ≠ [] := by
    simpa [Endpoint.isDynamic] using dynamic
  have letters : endpoint.name.all isNameChar = true :=
    all_imp (fun c capital => isNameChar_of_isBare c (isBare_of_isCapital c capital)) named
  rw [Endpoint.render, if_pos dynamic]
  generalize endpoint.placeholders.map (·.2) = names at bare filled ⊢
  have closes : ") => \x60".toList = ')' :: " => \x60".toList := rfl
  have ends : "\x60;".toList = '\x60' :: ";".toList := rfl
  have whole : ("export const " ++ endpoint.name ++ " = (" ++
      join ", " (names.map Endpoint.parameterText) ++ ") => \x60" ++
      Endpoint.template names (Path.parts endpoint.path) ++ "\x60;" : Text) =
      "export const ".toList ++ (endpoint.name ++ (" = (".toList ++
        (join ", " (names.map Endpoint.parameterText) ++ ')' :: (" => \x60".toList ++
          (Endpoint.template names (Path.parts endpoint.path) ++ '\x60' :: ";".toList))))) := by
    rw [closes, ends]
    simp only [List.append_assoc, List.cons_append]
  have free : ∀ name ∈ names, '}' ∉ name := fun name member =>
    all_ne_iff.mp (all_of_isBare (by decide) (bare name member))
  have template := Endpoint.readTemplate?_template (Path.alternating_parts endpoint.path) free ";"
  have stops (rest : Text) : (" = (".toList ++ rest).head?.all (fun c => !isNameChar c) = true := by
    change (!isNameChar ' ') = true
    decide
  simp only [whole, read?, isPrefixOf?_append, dropWhile_append_of_stop _ letters (stops _),
    takeWhile_append_of_stop _ letters (stops _), cut?_append (parenthesis_not_mem_join bare),
    template, Option.bind_eq_bind, Option.bind_some, if_pos, parameterNames_join filled bare]

variable {operations : List OperationTypes} {types : OperationTypes} {endpoint : Endpoint}

/-- The builder planned for an operation whose path has placeholders. Its parameters are the planned
ones, one for each placeholder. Its template literal, which ends the statement, substitutes them once
each in that order and nothing else, so that the builder returns the path with the arguments in the
places of the placeholders. Filled with its own placeholders a path is unchanged. -/
theorem builds_path (planned : (types, endpoint) ∈ operations.zip (Endpoint.plan operations))
    (dynamic : Path.placeholders types.path ≠ []) :
    ∃ builder, read? endpoint.render = some builder ∧
      builder.name = endpoint.name ∧
      builder.parameters = endpoint.placeholders.map (·.2) ∧
      endpoint.placeholders.map (·.1) = Path.placeholders types.path ∧
      builder.template.filterMap Chunk.argument? = builder.parameters ∧
      (∀ arguments : List Text, arguments.length = (Path.placeholders types.path).length →
        builder.result? arguments = some (Path.fill arguments (Path.parts types.path))) ∧
      Path.fill ((Path.placeholders types.path).map Path.inBraces) (Path.parts types.path) =
        types.path := by
  have member : endpoint ∈ Endpoint.plan operations := (List.of_mem_zip planned).2
  have path : endpoint.path = types.path := by
    obtain ⟨name, rfl⟩ := mem_zip_zipWith planned
    rfl
  have own : endpoint.placeholders = Endpoint.argumentsOf types.path := by
    rw [← path]
    exact Endpoint.placeholders_of_mem_plan member
  obtain ⟨keys, allotted⟩ := Endpoint.allotted_arguments types.path
  rw [← own] at keys allotted
  have length : (endpoint.placeholders.map (·.2)).length = (Path.placeholders types.path).length := by
    rw [allotted.length, List.length_map]
  have given : endpoint.isDynamic = true := by
    cases none : endpoint.placeholders with
    | nil =>
      rw [none] at keys
      exact absurd keys.symm dynamic
    | cons => rw [Endpoint.isDynamic, none]; rfl
  have bare : ∀ name ∈ endpoint.placeholders.map (·.2), name.all isBare = true := by
    intro name listed
    obtain ⟨placeholder, inside, rfl⟩ := List.mem_map.mp listed
    exact Endpoint.bare_of_mem_plan member placeholder inside
  have read := read?_render given (Endpoint.capital_of_mem_plan member) bare
  have enough : ((Path.parts types.path).filterMap Path.Part.name?).length =
      (endpoint.placeholders.map (·.2)).length := by
    rw [length, Path.placeholders_eq]
  rw [path] at read
  refine ⟨_, read, rfl, rfl, keys, Endpoint.argument?_chunksOf _ enough, ?_,
    Path.fill_placeholders types.path⟩
  intro arguments same
  have bound := Table.lookup_zip allotted.nodup (length.trans same.symm)
  exact Endpoint.values?_chunksOf bound _ enough

/-- A path with a backslash, a backtick, a dollar sign and a brace that opens nothing. -/
def markedPath : Text := "/\\\x7bid\x7d\x60$\x7bid\x7d\x7b"

def markedTypes : OperationTypes :=
  (Description.ofText "").value.typed "readShare" .get markedPath "" false

def markedEndpoint : Endpoint where
  operation := "readShare"
  method := .get
  path := markedPath
  name := "GET_ID_ID"
  placeholders := [("id", "id"), ("id", "id2")]

theorem markedEndpoint_builds_path :
    (markedTypes, markedEndpoint) ∈ [markedTypes].zip (Endpoint.plan [markedTypes]) ∧
    Path.placeholders markedTypes.path = (["id", "id"] : List Text) ∧
    ∃ builder, read? markedEndpoint.render = some builder ∧
      builder.parameters = (["id", "id2"] : List Text) ∧
      builder.result? ["7", "$\x7bid\x7d"] = some "/\\7\x60$$\x7bid\x7d\x7b".toList := by
  have endpoints : Endpoint.plan [markedTypes] = [markedEndpoint] := by decide +kernel
  have planned : (markedTypes, markedEndpoint) ∈
      [markedTypes].zip (Endpoint.plan [markedTypes]) := by
    rw [endpoints]
    exact List.mem_singleton.mpr rfl
  have twice : Path.placeholders markedTypes.path = (["id", "id"] : List Text) := by decide +kernel
  have dynamic : Path.placeholders markedTypes.path ≠ [] := by
    rw [twice]
    exact List.cons_ne_nil _ _
  obtain ⟨builder, read, _, parameters, _, _, returned, _⟩ := builds_path planned dynamic
  refine ⟨planned, twice, builder, read, parameters, ?_⟩
  rw [returned ["7", "$\x7bid\x7d"] (by rw [twice]; rfl)]
  decide +kernel

end PathBuilder

end TypedClient
