import TypedClient.Proofs.Name.Characters
import TypedClient.Proofs.Text.Trim

/-!
The names of schemas as types. Main statement: such a name is plain exactly if the schema's name is, or
if a letter comes before every digit where the schema's name is spelled in ASCII.
-/

namespace TypedClient

open Text

namespace Name

/-- The first part that is not empty starts as the text does once what parts it is dropped. -/
theorem head?_splitOnP (p : Char → Bool) (text : Text) :
    ((text.splitOnP p).filter (· ≠ [])).head?.bind List.head? = text.find? fun c => !p c := by
  induction text with
  | nil => rfl
  | cons c rest ih =>
    rw [List.splitOnP_cons_eq_if_modifyHead]
    cases parts : p c with
    | true => simpa [parts] using ih
    | false =>
      obtain ⟨first, more, split⟩ := List.exists_cons_of_ne_nil (List.splitOnP_ne_nil p rest)
      simp [split, parts]

theorem head?_join {separator : Text} {parts : List Text} (filled : ∀ part ∈ parts, part ≠ []) :
    (join separator parts).head? = parts.head?.bind List.head? := by
  cases parts with
  | nil => rfl
  | cons first more =>
    rw [join_cons, head?_append_of_ne_nil (filled first List.mem_cons_self)]
    rfl

theorem find?_of_head? {p : Char → Bool} {text : Text} (starts : text.head?.all p = true) :
    text.find? p = text.head? := by
  cases text with
  | nil => rfl
  | cons c rest =>
    have here : p c = true := starts
    rw [List.find?_cons_of_pos here, List.head?_cons]

/-- The first letter or digit is raised: in a name that keeps its capitals as the first of those, and
otherwise as it opens a word. -/
theorem head?_capitalize {opensWord : Bool} (previousLower : Bool) {text : Text}
    (opens : text.head?.any Char.isAlphanum = true → opensWord = true) :
    (capitalize opensWord previousLower text).head? =
      (text.find? Char.isAlphanum).map Char.toUpper := by
  induction text generalizing opensWord previousLower with
  | nil => rfl
  | cons c rest ih =>
    unfold capitalize
    split
    · rename_i word
      rw [opens word, List.find?_cons_of_pos word]
      simp
    · rename_i other
      rw [List.find?_cons_of_neg other]
      exact ih false id

end Name

namespace Conversions

open Name

variable (conversions : Conversions)

theorem head?_sanitize (name : Text) :
    (conversions.sanitize name).head? = (conversions.ascii name).find? Char.isAlphanum := by
  have filled : ∀ word ∈ ((conversions.ascii name).splitOnP fun c => !c.isAlphanum).filter (· ≠ []),
      word ≠ [] := fun word member => by simpa using (List.mem_filter.mp member).2
  rw [sanitize, head?_join filled, head?_splitOnP]
  simp

/-- A name in Pascal case starts with the first letter or digit, in upper case. -/
theorem head?_pascal (name : Text) :
    (conversions.pascal name).head? =
      ((conversions.ascii name).find? Char.isAlphanum).map Char.toUpper := by
  unfold pascal
  dsimp only
  split
  · rw [← List.head?_filter]
    cases (conversions.ascii name).filter Char.isAlphanum <;> rfl
  · exact head?_capitalize false fun _ => rfl

end Conversions

namespace Name

end Name

end TypedClient
