import TypedClient.Proofs.Name.Conversions
import TypedClient.Proofs.Name.Unique
import TypedClient.Proofs.Text.Characters

/-!
The characters that derived names are made of. Main statement: a name made from a verb and a path
is plain, whatever characters stand in the path.
-/

namespace TypedClient

open Text

namespace Name

/-- ASCII letters, digits and the underscore. -/
def isBare (c : Char) : Bool := c.isAlphanum || c == '_'

/-- ASCII capitals, digits and the underscore. -/
def isCapital (c : Char) : Bool := c.isUpper || c.isDigit || c == '_'

variable {name : Text}

theorem isAlphanum_toUpper {c : Char} (word : c.isAlphanum = true) :
    c.toUpper.isAlphanum = true :=
  alphanum_imp (q := fun c => c.toUpper.isAlphanum) (by decide) word

theorem isAlphanum_toLower {c : Char} (word : c.isAlphanum = true) :
    c.toLower.isAlphanum = true :=
  alphanum_imp (q := fun c => c.toLower.isAlphanum) (by decide) word

theorem isBare_of_isAlphanum (c : Char) (word : c.isAlphanum = true) : isBare c = true := by
  simp [isBare, word]

theorem continuesIdentifier_of_isBare (c : Char) (bare : isBare c = true) :
    continuesIdentifier c = true := by
  have bare : (c.isAlphanum || c == '_') = true := bare
  rw [continuesIdentifier, bare, Bool.true_or]

theorem continuesIdentifier_of_isAlphanum (c : Char) (word : c.isAlphanum = true) :
    continuesIdentifier c = true :=
  continuesIdentifier_of_isBare c (isBare_of_isAlphanum c word)

theorem continuesIdentifier_of_starts {c : Char} (starts : startsIdentifier c = true) :
    continuesIdentifier c = true := by
  simp only [startsIdentifier, Char.isAlphanum, continuesIdentifier, Bool.or_eq_true] at starts ⊢
  rcases starts with (letter | underscore) | dollar
  · exact Or.inl (Or.inl (Or.inl letter))
  · exact Or.inl (Or.inr underscore)
  · exact Or.inr dollar

theorem continuesIdentifier_imp {q : Char → Bool} {c : Char}
    (each : ∀ n < 128, continuesIdentifier (Char.ofNat n) = true → q (Char.ofNat n) = true)
    (here : continuesIdentifier c = true) : q c = true := by
  refine ascii_imp each ?_ here
  simp only [continuesIdentifier, Bool.or_eq_true, beq_iff_eq] at here
  rcases here with (word | rfl) | rfl
  · exact ascii_of_isAlphanum word
  · decide
  · decide

/-- Every character of a plain name is in a class that holds the characters of identifiers. -/
theorem all_of_isPlain {q : Char → Bool}
    (each : ∀ n < 128, continuesIdentifier (Char.ofNat n) = true → q (Char.ofNat n) = true)
    (plain : isPlain name = true) : name.all q = true := by
  cases name with
  | nil => rfl
  | cons c rest =>
    rw [isPlain, Bool.and_eq_true] at plain
    rw [List.all_cons, continuesIdentifier_imp each (continuesIdentifier_of_starts plain.1),
      all_imp (fun _ => continuesIdentifier_imp each) plain.2]
    rfl

/-- The first character of a bare text decides whether it is plain. -/
theorem isPlain_of_isBare (bare : name.all isBare = true) :
    isPlain name = name.head?.any startsIdentifier := by
  cases name with
  | nil => rfl
  | cons c rest =>
    rw [List.all_cons, Bool.and_eq_true] at bare
    rw [isPlain, all_imp continuesIdentifier_of_isBare bare.2, Bool.and_true]
    rfl

theorem isPlain_of_isAlpha {c : Char} (letter : c.isAlpha = true) (bare : name.all isBare = true) :
    isPlain (c :: name) = true := by
  rw [isPlain, startsIdentifier, letter, all_imp continuesIdentifier_of_isBare bare]
  rfl

theorem ne_nil_of_isPlain (plain : isPlain name = true) : name ≠ [] := by
  rintro rfl
  contradiction

/-- What follows a text that is not empty decides nothing if it only has identifier characters. -/
theorem isPlain_append {back : Text} (filled : name ≠ [])
    (continued : back.all continuesIdentifier = true) : isPlain (name ++ back) = isPlain name := by
  cases name with
  | nil => exact absurd rfl filled
  | cons c rest =>
    rw [List.cons_append, isPlain, isPlain, List.all_append, continued, Bool.and_true]

theorem all_camelAfter {previous : Option Char} (bare : name.all isBare = true) :
    (camelAfter previous name).all Char.isAlphanum = true := by
  induction name generalizing previous with
  | nil => rfl
  | cons c rest ih =>
    rw [List.all_cons, Bool.and_eq_true] at bare
    unfold camelAfter
    split
    · exact ih bare.2
    · rename_i other
      have word : c.isAlphanum = true := by simpa [isBare, other] using bare.1
      rw [List.all_cons, ih bare.2, Bool.and_true]
      split
      · exact isAlphanum_toUpper word
      · split
        · exact word
        · exact isAlphanum_toLower word

theorem all_capitalize (opensWord previousLower : Bool) (name : Text) :
    (capitalize opensWord previousLower name).all Char.isAlphanum = true := by
  induction name generalizing opensWord previousLower with
  | nil => rfl
  | cons c rest ih =>
    unfold capitalize
    split
    · rename_i word
      rw [List.all_cons, ih, Bool.and_true]
      split
      · exact isAlphanum_toUpper word
      · exact isAlphanum_toLower word
    · exact ih _ _

end Name

namespace Conversions

open Name

variable (conversions : Conversions)

theorem all_sanitize (name : Text) : (conversions.sanitize name).all isBare = true := by
  refine all_join (by decide) fun word member => all_imp isBare_of_isAlphanum ?_
  have inside := all_of_mem_splitOnP (List.mem_filter.mp member).1
  simpa using inside

theorem all_pascal (name : Text) : (conversions.pascal name).all Char.isAlphanum = true := by
  unfold pascal
  dsimp only
  split
  · split
    · rfl
    · rename_i c rest letters
      have word : (c :: rest).all Char.isAlphanum = true := by
        rw [← letters]
        simp
      rw [List.all_cons, Bool.and_eq_true] at word
      rw [List.all_cons, isAlphanum_toUpper word.1, word.2]
      rfl
  · exact all_capitalize true false _

theorem all_pascalName (path : Text) :
    (conversions.pascalName path).all Char.isAlphanum = true := by
  unfold pascalName
  split
  · rfl
  · rename_i name _
    apply List.all_eq_true.mpr
    intro c member
    obtain ⟨segment, _, inside⟩ := List.mem_flatMap.mp member
    exact List.all_eq_true.mp (conversions.all_pascal segment) c inside

end Conversions

namespace Name

variable {name : Text}

theorem all_sanitize (name : Text) : (sanitize name).all isBare = true :=
  Conversions.standard.all_sanitize name

theorem all_pascal (name : Text) : (pascal name).all Char.isAlphanum = true :=
  Conversions.standard.all_pascal name

/-- An identifier is made of ASCII letters, digits and underscores. -/
theorem all_identifier (name : Text) : (identifier name).all isBare = true := by
  have bare : (camel (sanitize name)).all isBare = true :=
    all_imp isBare_of_isAlphanum (all_camelAfter (all_sanitize name))
  unfold identifier
  split
  · rfl
  · rename_i c rest camel
    rw [camel] at bare
    have bound : (if c.isDigit then '_' :: c :: rest else c :: rest).all isBare = true := by
      split
      · rw [List.all_cons, bare]
        rfl
      · exact bare
    dsimp only
    generalize (if c.isDigit then '_' :: c :: rest else c :: rest) = free at bound ⊢
    split
    · rw [List.all_append, bound]
      rfl
    · exact bound

theorem all_parted (bare : name.all isBare = true) : (parted name).all isBare = true := by
  fun_induction parted name with
  | case1 => rfl
  | case2 => exact bare
  | case3 c d rest _ ih =>
    rw [List.all_cons, Bool.and_eq_true] at bare
    rw [List.all_cons, List.all_cons, bare.1, ih bare.2]
    rfl
  | case4 c d rest _ ih =>
    rw [List.all_cons, Bool.and_eq_true] at bare
    rw [List.all_cons, bare.1, ih bare.2]
    rfl

theorem all_upperAscii_parted (bare : name.all isBare = true) :
    (upperAscii (parted name)).all isCapital = true := by
  unfold upperAscii
  rw [List.all_map]
  refine all_imp (fun c here => ?_) (all_parted bare)
  simp only [isBare, Bool.or_eq_true, beq_iff_eq] at here
  rcases here with word | rfl
  · exact alphanum_imp (q := fun c => isCapital c.toUpper) (by decide) word
  · rfl

theorem all_constant (name : Text) : (constant name).all isCapital = true :=
  all_upperAscii_parted (all_sanitize name)

theorem numbered_eq (base : Text) (i : Nat) (used : List Text) :
    ∃ digits, digits.all Char.isDigit = true ∧ numbered base i used = base ++ digits := by
  fun_induction numbered base i used with
  | case1 i used name taken ih => exact ih
  | case2 i used name free =>
    exact ⟨ofNat i, List.all_eq_true.mpr fun c member =>
      Nat.isDigit_of_mem_toDigits (by decide) (by decide) member, rfl⟩

theorem unique_eq (base : Text) (used : List Text) :
    ∃ digits, digits.all Char.isDigit = true ∧ unique base used = base ++ digits := by
  unfold unique
  split
  · exact numbered_eq base 2 used
  · exact ⟨[], rfl, (List.append_nil base).symm⟩

/-- A name that was made unique is one of the names, perhaps with a number. -/
theorem eq_of_mem_uniques {used bases : List Text} (member : name ∈ uniques used bases) :
    ∃ base ∈ bases, ∃ digits, digits.all Char.isDigit = true ∧ name = base ++ digits := by
  induction bases generalizing used with
  | nil => simp [uniques] at member
  | cons base rest ih =>
    rcases List.mem_cons.mp member with rfl | later
    · obtain ⟨digits, numeric, same⟩ := unique_eq base used
      exact ⟨base, List.mem_cons_self, digits, numeric, same⟩
    · obtain ⟨base, listed, found⟩ := ih later
      exact ⟨base, List.mem_cons_of_mem _ listed, found⟩

theorem all_of_mem_uniques {p : Char → Bool} {used bases : List Text}
    (digits : ∀ c, c.isDigit = true → p c = true) (bases_all : ∀ base ∈ bases, base.all p = true)
    (member : name ∈ uniques used bases) : name.all p = true := by
  obtain ⟨base, listed, number, numeric, rfl⟩ := eq_of_mem_uniques member
  rw [List.all_append, bases_all base listed, all_imp digits numeric]
  rfl

theorem isBare_of_isDigit (c : Char) (digit : c.isDigit = true) : isBare c = true := by
  simp [isBare, Char.isAlphanum, digit]

theorem isBare_of_isCapital (c : Char) (capital : isCapital c = true) : isBare c = true := by
  simp only [isCapital, Bool.or_eq_true] at capital
  rcases capital with (upper | digit) | underscore
  · have letter : c.isAlphanum = ((c.isUpper || c.isLower) || c.isDigit) := rfl
    simp [isBare, letter, upper]
  · exact isBare_of_isDigit c digit
  · simp [isBare, underscore]

/-- Every character of a bare text is in a class that holds the characters of identifiers. -/
theorem all_of_isBare {q : Char → Bool}
    (each : ∀ n < 128, continuesIdentifier (Char.ofNat n) = true → q (Char.ofNat n) = true)
    (bare : name.all isBare = true) : name.all q = true :=
  all_imp (fun _ here => continuesIdentifier_imp each (continuesIdentifier_of_isBare _ here)) bare

theorem isCapital_of_isDigit (c : Char) (digit : c.isDigit = true) : isCapital c = true := by
  simp [isCapital, digit]

end Name

namespace VerbPrefixes

/-- Every verb is a word of ASCII letters. -/
def Worded (verbs : VerbPrefixes) : Prop :=
  ∀ entry ∈ verbs.entries, entry.2 ≠ [] ∧ entry.2.all Char.isAlpha = true

instance (verbs : VerbPrefixes) : Decidable verbs.Worded :=
  inferInstanceAs (Decidable (∀ entry ∈ verbs.entries,
    entry.2 ≠ [] ∧ entry.2.all Char.isAlpha = true))

variable {verbs : VerbPrefixes} {method : Method}

theorem lowerName_worded (known : method ∈ Method.known) :
    method.lowerName ≠ [] ∧ method.lowerName.all Char.isAlpha = true := by
  have each : ∀ method ∈ Method.known,
      method.lowerName ≠ [] ∧ method.lowerName.all Char.isAlpha = true := by decide
  exact each method known

theorem verbFor_worded (worded : verbs.Worded) (known : method ∈ Method.known) :
    verbs.verbFor method ≠ [] ∧ (verbs.verbFor method).all Char.isAlpha = true := by
  unfold verbFor
  cases found : verbs.entries.lookup method.lowerName with
  | none => exact lowerName_worded known
  | some verb =>
    exact worded (method.lowerName, verb) (Table.mem_of_lookup found)

theorem all_pascalName (path : Text) : (Path.pascalName path).all Char.isAlphanum = true :=
  Conversions.standard.all_pascalName path

theorem wrapperName_opens (conversions : Conversions) (worded : verbs.Worded)
    (known : method ∈ Method.known) (path : Text) :
    ∃ c rest, conversions.wrapperName verbs method path = c :: rest ∧ c.isAlpha = true ∧
      rest.all Name.isBare = true := by
  obtain ⟨filled, letters⟩ := verbFor_worded worded known
  unfold Conversions.wrapperName
  cases verb : verbs.verbFor method with
  | nil => exact absurd verb filled
  | cons c rest =>
    rw [verb, List.all_cons, Bool.and_eq_true] at letters
    refine ⟨c, rest ++ conversions.pascalName path, rfl, letters.1, ?_⟩
    have tail : rest.all Name.isBare = true :=
      all_imp (fun d letter => by simp [Name.isBare, Char.isAlphanum, letter]) letters.2
    rw [List.all_append, tail,
      all_imp Name.isBare_of_isAlphanum (conversions.all_pascalName path)]
    rfl

theorem wrapperName_plain (worded : verbs.Worded) (known : method ∈ Method.known) (path : Text) :
    ∃ c rest, verbs.wrapperName method path = c :: rest ∧ c.isAlpha = true ∧
      rest.all Name.isBare = true :=
  wrapperName_opens .standard worded known path

/-- A name from a verb and a path is plain, also with a number behind it. -/
theorem isPlain_of_mem_uniques {bases used : List Text} {name : Text}
    (worded : verbs.Worded)
    (named : ∀ base ∈ bases, ∃ method ∈ Method.known, ∃ path,
      base = verbs.wrapperName method path)
    (member : name ∈ Name.uniques used bases) : Name.isPlain name = true := by
  obtain ⟨base, listed, digits, numeric, rfl⟩ := Name.eq_of_mem_uniques member
  obtain ⟨method, known, path, rfl⟩ := named base listed
  obtain ⟨c, rest, same, letter, bare⟩ := wrapperName_plain worded known path
  have whole : (rest ++ digits).all Name.isBare = true := by
    rw [List.all_append, bare, all_imp Name.isBare_of_isDigit numeric]
    rfl
  rw [same]
  exact Name.isPlain_of_isAlpha letter whole

end VerbPrefixes

end TypedClient
