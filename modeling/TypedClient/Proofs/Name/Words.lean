import Mathlib.Data.List.Forall2
import TypedClient.Proofs.Name.Validity

/-!
The words of a name. Two words meet in front of an upper-case character that follows a lower-case
one or a digit, or precedes a lower-case one, and nowhere else. Main statement: this settles the
words, nothing of the name is lost, and in a property's segment the words `Url` and `Id` are put in
capitals and no others.
-/

namespace TypedClient

open Text

namespace Name

/-- Whether the character at an index is in upper case, not the first, and follows one in lower case
or a digit or precedes one in lower case. -/
def isWordStart (text : Text) (index : Nat) : Bool :=
  decide (0 < index) && text[index]?.any isUppercase &&
    (text[index - 1]?.any (fun c => isLowercase c || c.isDigit) ||
      text[index + 1]?.any isLowercase)

/-- Whether two of the words meet at an index of the text they make up. -/
def MeetAt (words : List Text) (index : Nat) : Prop :=
  ∃ front back, words = front ++ back ∧ front ≠ [] ∧ back ≠ [] ∧ front.flatten.length = index

/-- Words that make up a text, none of them empty, and that meet where a word starts. -/
structure WordsOf (text : Text) (words : List Text) : Prop where
  whole : words.flatten = text
  filled : ∀ word ∈ words, word ≠ []
  starts : ∀ index, MeetAt words index ↔ isWordStart text index = true

section Meeting

variable {first second : Text} {words more : List Text} {index : Nat}

theorem not_meetAt_nil (index : Nat) : ¬ MeetAt [] index := by
  rintro ⟨front, back, whole, filled, _⟩
  exact filled (List.append_eq_nil_iff.mp whole.symm).1

theorem not_meetAt_singleton (word : Text) (index : Nat) : ¬ MeetAt [word] index := by
  rintro ⟨front, back, whole, filled, left, _⟩
  rcases List.append_eq_singleton_iff.mp whole.symm with ⟨none, _⟩ | ⟨_, none⟩
  · exact filled none
  · exact left none

/-- Two words meet behind the first of them, or where the others meet once they are joined. -/
theorem meetAt_cons_cons : MeetAt (first :: second :: more) index ↔
    index = first.length ∨ MeetAt ((first ++ second) :: more) index := by
  constructor
  · rintro ⟨front, back, whole, filled, left, rfl⟩
    cases front with
    | nil => contradiction
    | cons head front =>
      obtain ⟨rfl, later⟩ := List.cons.inj whole
      cases front with
      | nil => exact .inl (by simp)
      | cons head front =>
        obtain ⟨rfl, last⟩ := List.cons.inj later
        exact .inr ⟨(first ++ second) :: front, back, by rw [last]; rfl, by simp, left, by simp⟩
  · rintro (rfl | ⟨front, back, whole, filled, left, rfl⟩)
    · exact ⟨[first], second :: more, rfl, by simp, by simp, by simp⟩
    · cases front with
      | nil => contradiction
      | cons head front =>
        obtain ⟨rfl, later⟩ := List.cons.inj whole
        exact ⟨first :: second :: front, back, by rw [later]; rfl, by simp, left, by simp⟩

/-- Words do not meet within the first of them. -/
theorem length_le_of_meetAt (meets : MeetAt (first :: more) index) : first.length ≤ index := by
  obtain ⟨front, back, whole, filled, _, rfl⟩ := meets
  cases front with
  | nil => contradiction
  | cons head front =>
    obtain ⟨rfl, _⟩ := List.cons.inj whole
    simp

theorem meetAt_length (left : more ≠ []) : MeetAt (first :: more) first.length :=
  ⟨[first], more, rfl, by simp, left, by simp⟩

/-- Behind the first word, words meet as they do without it. -/
theorem meetAt_add_iff (positive : 0 < index) :
    MeetAt (first :: more) (first.length + index) ↔ MeetAt more index := by
  constructor
  · rintro ⟨front, back, whole, filled, left, length⟩
    cases front with
    | nil => contradiction
    | cons head front =>
      obtain ⟨rfl, later⟩ := List.cons.inj whole
      rw [List.flatten_cons, List.length_append] at length
      refine ⟨front, back, later, ?_, left, by omega⟩
      rintro rfl
      rw [List.flatten_nil, List.length_nil] at length
      omega
  · rintro ⟨front, back, rfl, filled, left, rfl⟩
    exact ⟨first :: front, back, rfl, by simp, left, by simp⟩

theorem not_meetAt_zero (filled : ∀ word ∈ words, word ≠ []) : ¬ MeetAt words 0 := by
  rintro ⟨front, back, rfl, first, _, length⟩
  cases front with
  | nil => contradiction
  | cons head front =>
    have empty := List.length_eq_zero_iff.mp length
    exact filled head (by simp) (List.append_eq_nil_iff.mp empty).1

/-- Words of one text that meet in the same places begin with the same word. -/
theorem length_le_of_same_meetings {other : List Text}
    (whole : (first :: words).flatten = (second :: other).flatten)
    (same : ∀ index, MeetAt (first :: words) index → MeetAt (second :: other) index) :
    second.length ≤ first.length := by
  by_cases left : words = []
  · have lengths := congrArg List.length whole
    rw [left, List.flatten_singleton, List.flatten_cons, List.length_append] at lengths
    omega
  · exact length_le_of_meetAt (same _ (meetAt_length left))

/-- A text and the places where words meet settle the words. -/
theorem words_unique {other : List Text} (filled : ∀ word ∈ words, word ≠ [])
    (otherFilled : ∀ word ∈ other, word ≠ []) (whole : words.flatten = other.flatten)
    (same : ∀ index, MeetAt words index ↔ MeetAt other index) : words = other := by
  induction words generalizing other with
  | nil =>
    cases other with
    | nil => rfl
    | cons second other =>
      have empty := (List.append_eq_nil_iff.mp whole.symm).1
      exact absurd empty (otherFilled second List.mem_cons_self)
  | cons first words ih =>
    cases other with
    | nil => exact absurd (List.append_eq_nil_iff.mp whole).1 (filled first List.mem_cons_self)
    | cons second other =>
      have shorter := length_le_of_same_meetings whole fun index => (same index).mp
      have longer := length_le_of_same_meetings whole.symm fun index => (same index).mpr
      obtain ⟨rfl, rest⟩ := List.append_inj whole (Nat.le_antisymm longer shorter)
      have words := fun word member => filled word (List.mem_cons_of_mem _ member)
      have others := fun word member => otherFilled word (List.mem_cons_of_mem _ member)
      rw [ih words others rest fun index => ?_]
      rcases Nat.eq_zero_or_pos index with rfl | positive
      · exact iff_of_false (not_meetAt_zero words) (not_meetAt_zero others)
      · exact (meetAt_add_iff positive).symm.trans ((same _).trans (meetAt_add_iff positive))

end Meeting

section Splitting

theorem isWordStart_append (before : Text) (previous c : Char) (rest : Text) :
    isWordStart (before ++ previous :: c :: rest) (before.length + 1) =
      startsWord previous c rest.head? := by
  have here : (before ++ previous :: c :: rest)[before.length + 1]? = some c := by simp
  have behind : (before ++ previous :: c :: rest)[before.length + 1 - 1]? = some previous := by
    simp
  have ahead : (before ++ previous :: c :: rest)[before.length + 1 + 1]? = rest.head? := by
    rw [List.getElem?_append_right (by omega), List.head?_eq_getElem?, Nat.add_assoc,
      Nat.add_sub_cancel_left]
    rfl
  rw [isWordStart, here, behind, ahead, decide_eq_true (Nat.succ_pos _)]
  rfl

/-- Behind a character, words meet where one starts. What stands before the character joins the word
that it belongs to. -/
theorem meetAt_splitAfter (before : Text) (previous : Char) (text : Text) (index : Nat) :
    MeetAt ((before ++ previous :: (splitAfter previous text).1) :: (splitAfter previous text).2)
        index ↔
      before.length + 1 ≤ index ∧ isWordStart (before ++ previous :: text) index = true := by
  induction text generalizing before previous with
  | nil =>
    refine iff_of_false (not_meetAt_singleton _ index) ?_
    rintro ⟨past, starts⟩
    have none : (before ++ [previous])[index]? = none := by
      rw [List.getElem?_eq_none_iff]
      simpa using past
    simp [isWordStart, none] at starts
  | cons c rest ih =>
    have later := ih (before ++ [previous]) c
    rw [List.length_append, List.length_singleton, List.append_assoc, List.append_assoc] at later
    have here := isWordStart_append before previous c rest
    have cut : (before.length + 1 ≤ index ∧
          isWordStart (before ++ previous :: c :: rest) index = true) ↔
        (index = before.length + 1 ∧ startsWord previous c rest.head? = true) ∨
          before.length + 1 + 1 ≤ index ∧
            isWordStart (before ++ previous :: c :: rest) index = true := by
      rw [← here]
      constructor
      · rintro ⟨reached, starts⟩
        rcases Nat.eq_or_lt_of_le reached with rfl | past
        · exact .inl ⟨rfl, starts⟩
        · exact .inr ⟨past, starts⟩
      · rintro (⟨rfl, starts⟩ | ⟨past, starts⟩)
        · exact ⟨Nat.le_refl _, starts⟩
        · exact ⟨by omega, starts⟩
    rw [List.singleton_append, List.singleton_append] at later
    rw [cut, ← later, splitAfter]
    dsimp only
    split
    · rename_i starts
      rw [meetAt_cons_cons, List.append_assoc]
      simp [starts]
    · rename_i inside
      simp [inside]

theorem splitAfter_filled (previous : Char) (text : Text) :
    ∀ word ∈ (splitAfter previous text).2, word ≠ [] := by
  induction text generalizing previous with
  | nil => exact fun _ member => nomatch member
  | cons c rest ih =>
    rw [splitAfter]
    dsimp only
    split
    · intro word member
      rcases List.mem_cons.mp member with rfl | later
      · exact List.cons_ne_nil _ _
      · exact ih c word later
    · exact ih c

theorem wordsOf_splitWords (text : Text) : WordsOf text (splitWords text) := by
  refine ⟨splitWords_flatten text, ?_, ?_⟩
  · cases text with
    | nil => exact fun _ member => nomatch member
    | cons c rest =>
      intro word member
      rcases List.mem_cons.mp member with rfl | later
      · exact List.cons_ne_nil _ _
      · exact splitAfter_filled c rest word later
  · intro index
    cases text with
    | nil => exact iff_of_false (not_meetAt_nil index) (by simp [isWordStart])
    | cons c rest =>
      have meets := meetAt_splitAfter [] c rest index
      have positive : isWordStart (c :: rest) index = true → 1 ≤ index := by
        intro starts
        simp only [isWordStart, Bool.and_eq_true, decide_eq_true_eq] at starts
        exact starts.1.1
      exact meets.trans ⟨And.right, fun starts => ⟨positive starts, starts⟩⟩

theorem splitWords_eq_iff {text : Text} {words : List Text} :
    splitWords text = words ↔ WordsOf text words := by
  constructor
  · rintro rfl
    exact wordsOf_splitWords text
  · intro division
    have split := wordsOf_splitWords text
    exact words_unique split.filled division.filled (split.whole.trans division.whole.symm)
      fun index => (split.starts index).trans (division.starts index).symm

end Splitting

/-- How a word is spelled in a segment: `Url` and `Id` in capitals, any other word as it is. -/
inductive Respelled : Text → Text → Prop
  | url : Respelled "Url" "URL"
  | id : Respelled "Id" "ID"
  | kept {word : Text} (notUrl : word ≠ "Url") (notId : word ≠ "Id") : Respelled word word

theorem respelled_acronym (word : Text) : Respelled word (acronym word) := by
  unfold acronym
  split
  · rename_i url
    exact url ▸ .url
  · rename_i notUrl
    split
    · rename_i id
      exact id ▸ .id
    · rename_i notId
      exact .kept notUrl notId

/-- The words of a name make it up and meet where words start, and in a property's segment all of
them are kept but `Url` and `Id`. -/
theorem words_respelled (conversions : Conversions) :
    (∀ text words, splitWords text = words ↔ WordsOf text words) ∧
    ∀ name, isBooleanName name = false → ¬ (name ≠ [] ∧ name.all Char.isDigit = true) →
      conversions.pascal name ≠ [] →
      ∃ words spelled, WordsOf (conversions.pascal name) words ∧
        List.Forall₂ Respelled words spelled ∧
        conversions.propertySegment name = spelled.flatten := by
  refine ⟨fun _ _ => splitWords_eq_iff, fun name plain undigit filled => ?_⟩
  refine ⟨splitWords (conversions.pascal name), (splitWords (conversions.pascal name)).map acronym,
    wordsOf_splitWords _, ?_, ?_⟩
  · rw [List.forall₂_map_right_iff]
    exact List.forall₂_same.mpr fun word _ => respelled_acronym word
  · rw [Conversions.propertySegment, if_neg undigit, if_neg filled, plain,
      if_neg Bool.false_ne_true, List.flatMap_def]

/-- `Url` and `Id` are words of this name, and `Idle` is another one. -/
theorem page_words_respelled :
    isBooleanName "pageUrlIdleId" = false ∧ pascal "pageUrlIdleId" = "PageUrlIdleId" ∧
      splitWords "PageUrlIdleId" = ["Page", "Url", "Idle", "Id"].map String.toList ∧
      (∃ words spelled, WordsOf "PageUrlIdleId" words ∧ List.Forall₂ Respelled words spelled ∧
        propertySegment "pageUrlIdleId" = spelled.flatten) ∧
      propertySegment "pageUrlIdleId" = "PageURLIdleID" := by
  have plain : isBooleanName "pageUrlIdleId" = false := by decide +kernel
  have pascal : Conversions.standard.pascal "pageUrlIdleId" = "PageUrlIdleId" := by decide +kernel
  have filled : Conversions.standard.pascal "pageUrlIdleId" ≠ [] := by
    rw [pascal]
    exact List.cons_ne_nil _ _
  have respelled :=
    (words_respelled .standard).2 "pageUrlIdleId" plain (by decide +kernel) filled
  rw [pascal] at respelled
  exact ⟨plain, pascal, by decide +kernel, respelled, by decide +kernel⟩

end Name

end TypedClient
