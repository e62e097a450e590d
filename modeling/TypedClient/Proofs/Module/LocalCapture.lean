import TypedClient.Proofs.Module.TypeNames
import TypedClient.Proofs.TypeText.Token

/-!
Local names in the types of a tag. Main statement: the text of an alias says what its type says exactly
if no name of the type is a local name of the tag and every reference stands apart from names, outside
of quoted spans and comments.
-/

namespace TypedClient

open Text Name

/-- A target as type text. -/
def Target.fragments : Target → List Fragment
  | schema name => [.schema name]
  | schemaArray element => [.schema element, .other '[', .other ']']
  | inline type => TypedClient.fragments type
  | void => Fragment.ofText "void"
  | fallback => Fragment.ofText "unknown"

namespace Module

/-- A word that is a local name, as a reference to its schema. -/
def expandToken (locals : List (Text × Text)) : Token → Token
  | .word name =>
    match locals.find? fun entry => entry.2 = name with
    | some entry => .reference entry.1
    | none => .word name
  | token => token

/-- The tokens of a text, with the schemas that local names stand for. -/
def expanded (locals : List (Text × Text)) (text : Text) : List Token :=
  (tokensOf text).map (expandToken locals)

/-- Whether a token of a type is read back from the text as it was: a word that is no local name,
a reference to a schema whose local name has letters, or a span without references. -/
def isKept (locals : List (Text × Text)) : Token → Bool
  | .word name => name ∉ locals.map (·.2)
  | .reference schema => localOf locals schema ≠ []
  | .between stretch => stretch.isClean

/-- No local name captures a token of a type. -/
structure Uncaptured (locals : List (Text × Text)) (type : List Token) : Prop where
  kept : ∀ token ∈ type, isKept locals token = true
  apart : type.IsChain Token.Separate

instance (locals : List (Text × Text)) (type : List Token) : Decidable (Uncaptured locals type) :=
  decidable_of_iff ((∀ token ∈ type, isKept locals token = true) ∧ type.IsChain Token.Separate)
    ⟨fun ⟨kept, apart⟩ => ⟨kept, apart⟩, fun ⟨kept, apart⟩ => ⟨kept, apart⟩⟩

/-- The text of a target says what the target says. -/
structure Faithful (locals : List (Text × Text)) (target : Target) : Prop where
  /-- References become local names, and all other tokens stay. -/
  tokens : tokensOf (renderTarget locals target) =
    (tokens target.fragments).map (Token.named (localOf locals))
  /-- A local name stands only where a reference to its schema stood. -/
  stands : ∀ (i : Nat) (name : Text), (tokensOf (renderTarget locals target))[i]? = some (.word name) →
    name ∈ locals.map (·.2) →
      ∃ schema, (schema, name) ∈ locals ∧
        (TypedClient.tokens target.fragments)[i]? = some (.reference schema)
  /-- Reading the local names as their schemas gives the type. -/
  back : expanded locals (renderTarget locals target) = TypedClient.tokens target.fragments
  text : (expanded locals (renderTarget locals target)).flatMap (Token.text schemaAccess) =
    renderWith schemaAccess target

theorem renderWith_eq_written (nameOf : Text → Text) (target : Target) :
    renderWith nameOf target = written nameOf target.fragments := by
  cases target with
  | schema name => exact (List.append_nil _).symm
  | schemaArray element => rfl
  | inline type => rfl
  | void => exact (written_ofText nameOf _).symm
  | fallback => exact (written_ofText nameOf _).symm

theorem mem_schemasOf {target : Target} {schema : Text} :
    .schema schema ∈ target.fragments ↔ schema ∈ schemasOf target := by
  cases target with
  | schema name => simp [Target.fragments, schemasOf]
  | schemaArray element => simp [Target.fragments, schemasOf]
  | inline type =>
    simp only [Target.fragments, schemasOf, schemaRefs, List.mem_filterMap]
    constructor
    · exact fun listed => ⟨_, listed, rfl⟩
    · rintro ⟨c | name, listed, same⟩
      · contradiction
      · cases same
        exact listed
  | void => simp [Target.fragments, Fragment.ofText, schemasOf]
  | fallback => simp [Target.fragments, Fragment.ofText, schemasOf]

section Locals

variable {operations : List OperationTypes} {entry : Alias}

theorem localOf_of_mem {schema name : Text} (inside : (schema, name) ∈ localsFor operations) :
    localOf (localsFor operations) schema = name := by
  have distinct : ((localsFor operations).map (·.1)).Nodup := by
    rw [keys_localsFor]
    exact (Table.ascending_sorted _).nodup
  rw [localOf, Table.lookup_of_mem distinct inside, Option.getD_some]

/-- A schema that an alias refers to is listed with its local name. -/
theorem mem_localsFor {schema : Text} (listed : entry ∈ aliasesOf operations)
    (refers : schema ∈ schemasOf entry.target) :
    (schema, localOf (localsFor operations) schema) ∈ localsFor operations := by
  have named : schema ∈ (localsFor operations).map (·.1) :=
    mem_keys_localsFor.mpr (List.mem_flatMap.mpr ⟨entry, listed, refers⟩)
  obtain ⟨⟨_, name⟩, inside, rfl⟩ := List.mem_map.mp named
  rwa [localOf_of_mem inside]

theorem all_local {schema name : Text} (inside : (schema, name) ∈ localsFor operations) :
    name.all FoundWrapper.isNameChar = true := by
  obtain ⟨digits, numeric, same⟩ := eq_of_mem_localsFor inside
  have number : digits.all FoundWrapper.isNameChar = true :=
    all_imp (fun c digit => FoundWrapper.isNameChar_of_isBare c (isBare_of_isDigit c digit)) numeric
  rw [show name = _ from same, List.all_append, number, Bool.and_true, schemaType]
  split
  · exact all_of_isPlain (by decide) ‹_›
  · exact all_imp (fun c word => FoundWrapper.isNameChar_of_isBare c (isBare_of_isAlphanum c word))
      (all_pascal _)

/-- A local name is read as the schema it is listed with. -/
theorem expandToken_local {schema name : Text} (inside : (schema, name) ∈ localsFor operations) :
    expandToken (localsFor operations) (.word name) = .reference schema := by
  have distinct : ((localsFor operations).map (·.2)).Nodup :=
    (allotted_localNames _ _).2.nodup
  rw [expandToken, find?_key distinct inside]

theorem expandToken_other {locals : List (Text × Text)} {name : Text}
    (other : name ∉ locals.map (·.2)) : expandToken locals (.word name) = .word name := by
  have absent : (locals.find? fun entry => entry.2 = name) = none := by
    rw [List.find?_eq_none]
    intro entry listed same
    exact other (List.mem_map.mpr ⟨entry, listed, by simpa using same⟩)
  rw [expandToken, absent]

/-- What a word of a text is read as. -/
theorem expandToken_cases (locals : List (Text × Text)) (name : Text) :
    (∃ schema, (schema, name) ∈ locals ∧ expandToken locals (.word name) = .reference schema) ∨
      (name ∉ locals.map (·.2) ∧ expandToken locals (.word name) = .word name) := by
  by_cases known : name ∈ locals.map (·.2)
  · cases found : locals.find? fun entry => entry.2 = name with
    | none =>
      obtain ⟨entry, listed, same⟩ := List.mem_map.mp known
      exact absurd (List.find?_eq_none.mp found entry listed) (by simp [same])
    | some entry =>
      have same : entry.2 = name := by simpa using List.find?_some found
      exact .inl ⟨entry.1, same ▸ List.mem_of_find?_eq_some found, by rw [expandToken, found]⟩
  · exact .inr ⟨known, expandToken_other known⟩

@[simp] theorem isName_expandToken (locals : List (Text × Text)) (token : Token) :
    (expandToken locals token).isName = token.isName := by
  cases token with
  | word name =>
    rcases expandToken_cases locals name with ⟨schema, _, same⟩ | ⟨_, same⟩
    · rw [same]
      rfl
    · rw [same]
  | reference schema => rfl
  | between stretch => rfl

/-- What is read from a text is no captured token. -/
theorem isKept_of_mem_expanded {text : Text} {token : Token}
    (member : token ∈ expanded (localsFor operations) text) :
    isKept (localsFor operations) token = true := by
  obtain ⟨token, read, rfl⟩ := List.mem_map.mp member
  have like := ofText_of_mem_tokensOf read
  cases token with
  | word name =>
    have filled : name ≠ [] := like
    rcases expandToken_cases (localsFor operations) name with ⟨schema, listed, same⟩ | ⟨other, same⟩
    · rw [same, isKept, localOf_of_mem listed, decide_eq_true filled]
    · rw [same, isKept, decide_eq_true other]
  | reference schema => exact absurd like id
  | between stretch => exact like

theorem uncaptured_of_back
    (back : expanded (localsFor operations) (renderTarget (localsFor operations) entry.target) =
      tokens entry.target.fragments) :
    Uncaptured (localsFor operations) (tokens entry.target.fragments) := by
  -- whatever the text, reading it gives no captured token
  rw [← back]
  refine ⟨fun _ => isKept_of_mem_expanded, ?_⟩
  rw [expanded, List.isChain_map]
  exact (isChain_tokensOf _).imp fun left right apart => by simpa [Token.Separate] using apart

theorem tokensOf_renderTarget (listed : entry ∈ aliasesOf operations)
    (uncaptured : Uncaptured (localsFor operations) (tokens entry.target.fragments)) :
    tokensOf (renderTarget (localsFor operations) entry.target) =
      (tokens entry.target.fragments).map (Token.named (localOf (localsFor operations))) := by
  have clean := isClean_of_between fun stretch inside => uncaptured.kept (.between stretch) inside
  rw [renderTarget_eq, renderWith_eq_written]
  refine tokensOf_written (fun schema refers => ?_) clean uncaptured.apart
  have filled := uncaptured.kept _ (reference_mem_tokens clean refers)
  have letters := all_local (mem_localsFor listed (mem_schemasOf.mp refers))
  rw [isKept, decide_eq_true_eq] at filled
  rw [isOneWord, letters, decide_eq_true filled]
  rfl

theorem reference_refers {target : Target} {schema : Text}
    (inside : .reference schema ∈ tokens target.fragments) : schema ∈ schemasOf target :=
  mem_schemasOf.mp (schema_mem_of_code (Token.madeFrom_of_mem inside))

theorem faithful_of_uncaptured (listed : entry ∈ aliasesOf operations)
    (uncaptured : Uncaptured (localsFor operations) (tokens entry.target.fragments)) :
    Faithful (localsFor operations) entry.target := by
  have written := tokensOf_renderTarget listed uncaptured
  have back : expanded (localsFor operations) (renderTarget (localsFor operations) entry.target) =
      tokens entry.target.fragments := by
    rw [expanded, written, List.map_map]
    refine (List.map_congr_left fun token inside => ?_).trans (List.map_id _)
    have kept := uncaptured.kept token inside
    cases token with
    | word name => exact expandToken_other (of_decide_eq_true kept)
    | reference schema => exact expandToken_local (mem_localsFor listed (reference_refers inside))
    | between stretch => rfl
  refine ⟨written, ?_, back, ?_⟩
  · intro i name stands known
    rw [written, List.getElem?_map] at stands
    obtain ⟨token, here, same⟩ := Option.map_eq_some_iff.mp stands
    have inside := List.mem_of_getElem? here
    cases token with
    | word other =>
      cases same
      exact absurd known (of_decide_eq_true (uncaptured.kept _ inside))
    | reference schema =>
      cases same
      exact ⟨schema, mem_localsFor listed (reference_refers inside), here⟩
    | between stretch => cases same
  · rw [back, text_tokens, renderWith_eq_written]

end Locals

/-- The text of an alias says what its type says exactly if no local name of the tag captures a
token of the type. -/
theorem faithful_iff_uncaptured (operations : List OperationTypes) :
    ∀ entry ∈ aliasesOf operations,
      Faithful (localsFor operations) entry.target ↔
        Uncaptured (localsFor operations) (tokens entry.target.fragments) := fun _ listed =>
  ⟨fun faithful => uncaptured_of_back faithful.back, faithful_of_uncaptured listed⟩

/-- An operation that answers with a schema, and one that answers with a type of its own. -/
def answering (schema type : Text) : List OperationTypes :=
  [⟨"read", .get, "/pages/last", [], none, none, .schema schema, none, none⟩,
    ⟨"list", .get, "/pages", [], none, none, .inline type, none, none⟩]

/-- The texts of the aliases of operations. -/
def aliasTexts (operations : List OperationTypes) : List Text :=
  (aliasesOf operations).map fun entry => renderTarget (localsFor operations) entry.target

/-- A schema next to a built-in type, named in a comment and in a quoted span too. -/
def pageOperations : List OperationTypes :=
  answering "Page" "Record<string, components['schemas']['Page'][]> /* Page */ | 'Page'"

theorem pages_faithful :
    aliasTexts pageOperations =
      (["Page", "Record<string, Page[]> /* Page */ | 'Page'"] : List Text) ∧
    ∀ entry ∈ aliasesOf pageOperations, Faithful (localsFor pageOperations) entry.target := by
  have held : aliasTexts pageOperations =
        (["Page", "Record<string, Page[]> /* Page */ | 'Page'"] : List Text) ∧
      ∀ entry ∈ aliasesOf pageOperations,
        Uncaptured (localsFor pageOperations) (tokens entry.target.fragments) := by
    decide +kernel
  exact ⟨held.1, fun entry listed =>
    (faithful_iff_uncaptured pageOperations entry listed).mpr (held.2 entry listed)⟩

/-- The name of the schema is given out as a local name although another operation uses the built-in
type of that name, so that its type is no longer what it was. -/
theorem record_captured :
    let operations := answering "Record" "Record<string, string>"
    localsFor operations = ([("Record", "Record")] : List (Text × Text)) ∧
      aliasTexts operations = (["Record", "Record<string, string>"] : List Text) ∧
      ∃ entry ∈ aliasesOf operations,
        (tokens entry.target.fragments)[0]? = some (.word "Record") ∧
          (expanded (localsFor operations)
            (renderTarget (localsFor operations) entry.target))[0]? = some (.reference "Record") ∧
          ¬ Faithful (localsFor operations) entry.target := by
  intro operations
  have held : localsFor operations = ([("Record", "Record")] : List (Text × Text)) ∧
      aliasTexts operations = (["Record", "Record<string, string>"] : List Text) ∧
      ∃ entry ∈ aliasesOf operations,
        (tokens entry.target.fragments)[0]? = some (.word "Record") ∧
          (expanded (localsFor operations)
            (renderTarget (localsFor operations) entry.target))[0]? = some (.reference "Record") := by
    decide +kernel
  obtain ⟨locals, texts, entry, listed, stood, read⟩ := held
  refine ⟨locals, texts, entry, listed, stood, read, fun faithful => ?_⟩
  rw [faithful.back, stood] at read
  contradiction

end Module

end TypedClient
