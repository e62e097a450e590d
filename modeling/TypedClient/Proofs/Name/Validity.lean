import TypedClient.Proofs.Name.SchemaType

/-!
Names that are derived from text are valid, whatever the text. Main statement: with any lawful
conversions an identifier is plain and not reserved, the names of constants, wrappers and aliases are
plain, and a property always has a segment.
-/

namespace TypedClient

open Text

namespace Name

theorem startsIdentifier_of_isBare {c : Char} (bare : isBare c = true)
    (undigit : c.isDigit = false) : startsIdentifier c = true := by
  simp only [isBare, Char.isAlphanum, undigit, Bool.or_false] at bare
  rw [startsIdentifier, bare, Bool.true_or]

/-- No reserved word ends in the underscore that sets a name apart from one. -/
theorem append_underscore_not_reserved (word : Text) : word ++ ['_'] ∉ reservedWords := by
  have each : ∀ reserved ∈ reservedWords, reserved.getLast? ≠ some '_' := by decide
  exact fun listed => each _ listed List.getLast?_concat

theorem head?_parted (name : Text) : (parted name).head? = name.head? := by
  fun_cases parted name <;> rfl

theorem splitAfter_flatten (previous : Char) (text : Text) :
    (splitAfter previous text).1 ++ (splitAfter previous text).2.flatten = text := by
  induction text generalizing previous with
  | nil => rfl
  | cons c rest ih =>
    unfold splitAfter
    dsimp only
    split
    · rw [List.nil_append, List.flatten_cons, List.cons_append, ih]
    · rw [List.cons_append, ih]

theorem splitWords_flatten (text : Text) : (splitWords text).flatten = text := by
  cases text with
  | nil => rfl
  | cons c rest =>
    unfold splitWords
    dsimp only
    rw [List.flatten_cons, List.cons_append, splitAfter_flatten]

theorem acronym_ne_nil {word : Text} (filled : word ≠ []) : acronym word ≠ [] := by
  unfold acronym
  split
  · decide
  · split
    · decide
    · exact filled

theorem all_acronym {word : Text} (letters : word.all Char.isAlphanum = true) :
    (acronym word).all Char.isAlphanum = true := by
  unfold acronym
  split
  · rfl
  · split
    · rfl
    · exact letters

end Name

namespace Conversions

open Name

/-- What names rely on: an ASCII text is its own spelling, both cases keep to letters, digits and
underscores, and constant case to a letter in front. -/
structure Lawful (conversions : Conversions) : Prop where
  ascii_kept : ∀ text, text.all isAscii = true → conversions.ascii text = text
  camel_bare : ∀ name, name.all isBare = true → (conversions.camel name).all isBare = true
  constant_bare : ∀ name, name.all isBare = true → (conversions.constant name).all isBare = true
  constant_opens : ∀ name, name.all isBare = true → name.head?.any Char.isAlpha = true →
    (conversions.constant name).head?.any Char.isAlpha = true

theorem standard_lawful : standard.Lawful where
  ascii_kept text ascii := toAscii_eq_self fun c member => List.all_eq_true.mp ascii c member
  camel_bare name bare := all_imp isBare_of_isAlphanum (all_camelAfter bare)
  constant_bare name bare := all_imp isBare_of_isCapital (all_upperAscii_parted bare)
  constant_opens name _ opens := by
    obtain ⟨c, starts, letter⟩ := (Option.any_eq_true ..).mp opens
    have first : (upperAscii (parted name)).head? = some c.toUpper := by
      rw [upperAscii, List.head?_map, head?_parted, starts]
      rfl
    have raised := alphanum_imp (q := fun c => !c.isAlpha || c.toUpper.isAlpha) (by decide)
      (by simp [Char.isAlphanum, letter] : c.isAlphanum = true)
    rw [letter, Bool.not_true, Bool.false_or] at raised
    exact (Option.any_eq_true ..).mpr ⟨c.toUpper, first, raised⟩

variable {conversions : Conversions}

/-- An identifier is never empty, opened by a digit or reserved. -/
theorem identifier_bound (lawful : conversions.Lawful) (name : Text) :
    isPlain (conversions.identifier name) = true ∧
      conversions.identifier name ∉ reservedWords := by
  have bare := lawful.camel_bare _ (conversions.all_sanitize name)
  unfold identifier
  split
  · decide
  · rename_i c rest camel
    rw [camel] at bare
    have plain : isPlain (if c.isDigit then '_' :: c :: rest else c :: rest) = true := by
      split
      · exact all_imp continuesIdentifier_of_isBare bare
      · rename_i undigit
        have here : isBare c = true := List.all_eq_true.mp bare c List.mem_cons_self
        rw [isPlain_of_isBare bare]
        exact startsIdentifier_of_isBare here (Bool.eq_false_iff.mpr undigit)
    dsimp only
    generalize (if c.isDigit then '_' :: c :: rest else c :: rest) = bound at plain ⊢
    split
    · refine ⟨?_, append_underscore_not_reserved bound⟩
      rw [isPlain_append (ne_nil_of_isPlain plain) (by decide)]
      exact plain
    · exact ⟨plain, ‹_›⟩

theorem sanitize_opens (lawful : conversions.Lawful) {word tail : Text} (filled : word ≠ [])
    (letters : word.all Char.isAlpha = true) (bare : tail.all isBare = true) :
    (conversions.sanitize (word ++ "_" ++ tail)).head?.any Char.isAlpha = true := by
  obtain ⟨c, rest, rfl⟩ := List.exists_cons_of_ne_nil filled
  have words : (c :: rest).all isBare = true :=
    all_imp (fun d letter => by simp [isBare, Char.isAlphanum, letter]) letters
  have ascii : (c :: rest ++ "_" ++ tail).all isAscii = true := by
    rw [List.all_append, List.all_append, all_of_isBare (by decide) words,
      all_of_isBare (by decide) bare]
    rfl
  rw [List.all_cons, Bool.and_eq_true] at letters
  have starts : (c :: rest ++ "_" ++ tail).head?.all Char.isAlphanum = true := by
    simp [Char.isAlphanum, letters.1]
  rw [conversions.head?_sanitize, lawful.ascii_kept _ ascii, find?_of_head? starts]
  exact letters.1

/-- A constant is opened by the letter that opens its method. -/
theorem isPlain_constantName (lawful : conversions.Lawful) {method : Method}
    (known : method ∈ Method.known) (path : Text) :
    isPlain (conversions.constantName method path) = true := by
  obtain ⟨filled, letters⟩ := VerbPrefixes.lowerName_worded known
  unfold constantName
  dsimp only
  generalize segments :
    (((path.splitOn '/').map Path.withoutBraces).map conversions.sanitize).filter (· ≠ []) = words
  have tail : (if words = [] then "root".toList else join "_" words).all isBare = true := by
    split
    · rfl
    · refine all_join (by decide) fun word listed => ?_
      rw [← segments] at listed
      obtain ⟨segment, _, rfl⟩ := List.mem_map.mp (List.mem_filter.mp listed).1
      exact conversions.all_sanitize segment
  have bare := conversions.all_sanitize
    (method.lowerName ++ "_" ++ if words = [] then "root".toList else join "_" words)
  have opens := lawful.constant_opens _ bare (sanitize_opens lawful filled letters tail)
  obtain ⟨c, starts, letter⟩ := (Option.any_eq_true ..).mp opens
  rw [isPlain_of_isBare (lawful.constant_bare _ bare), starts]
  simp [startsIdentifier, letter]

theorem isPlain_wrapperName (conversions : Conversions) {method : Method}
    (known : method ∈ Method.known) (path : Text) :
    isPlain (conversions.wrapperName .standard method path) = true := by
  have worded : VerbPrefixes.standard.Worded := by decide
  obtain ⟨c, rest, same, letter, bare⟩ := VerbPrefixes.wrapperName_opens conversions worded known path
  rw [same]
  exact isPlain_of_isAlpha letter bare

theorem all_schemaType (schema : Text) :
    (conversions.schemaType schema).all continuesIdentifier = true := by
  unfold schemaType
  split
  · rename_i plain
    exact all_of_isPlain (by decide) plain
  · exact all_imp continuesIdentifier_of_isAlphanum (conversions.all_pascal _)

theorem all_propertySegment (name : Text) :
    (conversions.propertySegment name).all Char.isAlphanum = true := by
  have letters := conversions.all_pascal name
  unfold propertySegment
  split
  · rfl
  · split
    · rfl
    · split
      · exact letters
      · rw [List.all_flatMap, List.all_eq_true]
        intro word listed
        refine all_acronym (List.all_eq_true.mpr fun c inside => ?_)
        have within : c ∈ conversions.pascal name := by
          rw [← splitWords_flatten (conversions.pascal name)]
          exact List.mem_flatten_of_mem listed inside
        exact List.all_eq_true.mp letters c within

theorem propertySegment_ne_nil (name : Text) : conversions.propertySegment name ≠ [] := by
  unfold propertySegment
  split
  · decide
  · split
    · decide
    · rename_i filled
      split
      · exact filled
      · obtain ⟨c, rest, pascal⟩ := List.exists_cons_of_ne_nil filled
        rw [pascal, splitWords, List.flatMap_cons]
        exact fun none => acronym_ne_nil (List.cons_ne_nil c _) (List.append_eq_nil_iff.mp none).1

theorem isPlain_propertyAliasName (schema property : Text) :
    isPlain (conversions.propertyAliasName schema property) = true := by
  have segment : (conversions.propertySegment property).all continuesIdentifier = true :=
    all_imp continuesIdentifier_of_isAlphanum (all_propertySegment property)
  unfold propertyAliasName
  rw [List.append_assoc, List.append_assoc, isPlain_append (by decide)]
  · rfl
  · rw [List.all_append, List.all_append, all_schemaType, segment]
    rfl

end Conversions

open Name

/-- The names that are written down are ones a module can be built from, for every text, every path and
every method a path can declare. -/
theorem derived_names_valid (conversions : Conversions) (lawful : conversions.Lawful) :
    (∀ name, isPlain (conversions.identifier name) = true ∧
      conversions.identifier name ∉ reservedWords) ∧
    (∀ method ∈ Method.known, ∀ path,
      isPlain (conversions.constantName method path) = true ∧
      isPlain (conversions.wrapperName .standard method path) = true) ∧
    (∀ schema property, isPlain (conversions.propertyAliasName schema property) = true) ∧
    ∀ name, conversions.propertySegment name ≠ [] := by
  refine ⟨Conversions.identifier_bound lawful, fun method known path => ?_,
    Conversions.isPlain_propertyAliasName, Conversions.propertySegment_ne_nil⟩
  exact ⟨Conversions.isPlain_constantName lawful known path,
    Conversions.isPlain_wrapperName conversions known path⟩

theorem standard_names_valid :
    Conversions.standard.Lawful ∧
    (∀ name, isPlain (identifier name) = true ∧ identifier name ∉ reservedWords) ∧
    (∀ method ∈ Method.known, ∀ path, isPlain (Path.constantName method path) = true ∧
      isPlain (VerbPrefixes.standard.wrapperName method path) = true) ∧
    (∀ schema property, isPlain (propertyAliasName schema property) = true) ∧
    ∀ name, propertySegment name ≠ [] := by
  have lawful := Conversions.standard_lawful
  simp only [← Conversions.identifier_standard, ← Conversions.constantName_standard,
    ← Conversions.wrapperName_standard, ← Conversions.propertyAliasName_standard,
    ← Conversions.propertySegment_standard]
  exact ⟨lawful, derived_names_valid .standard lawful⟩

end TypedClient
