import TypedClient.Proofs.Text.Characters

/-!
Trimmed texts. A run of characters of one class ends where a character outside the class stands,
and a text that neither starts nor ends with a blank is what trimming leaves of it.
-/

namespace TypedClient.Text

theorem takeWhile_append_of_stop {α : Type} {p : α → Bool} (front : List α) {rest : List α}
    (all : front.all p = true) (stops : rest.head?.all (fun a => !p a) = true) :
    (front ++ rest).takeWhile p = front := by
  rw [List.takeWhile_append_of_pos (List.all_eq_true.mp all)]
  cases rest with
  | nil => simp
  | cons c rest => simp_all

theorem dropWhile_append_of_stop {α : Type} {p : α → Bool} (front : List α) {rest : List α}
    (all : front.all p = true) (stops : rest.head?.all (fun a => !p a) = true) :
    (front ++ rest).dropWhile p = rest := by
  rw [List.dropWhile_append_of_pos (List.all_eq_true.mp all)]
  cases rest with
  | nil => simp
  | cons c rest => simp_all

theorem head?_dropWhile_stops (p : Char → Bool) (text : Text) :
    (text.dropWhile p).head?.all (fun c => !p c) = true := by
  have stops := List.head?_dropWhile_not p text
  cases first : (text.dropWhile p).head? with
  | none => rfl
  | some c => simpa [first] using stops

theorem head?_all_of_all {p : Char → Bool} {text : Text} (all : text.all p = true) :
    text.head?.all p = true := by
  cases text with
  | nil => rfl
  | cons c rest =>
    rw [List.all_cons, Bool.and_eq_true] at all
    exact all.1

theorem getLast?_all_of_all {p : Char → Bool} {text : Text} (all : text.all p = true) :
    text.getLast?.all p = true := by
  rw [← List.head?_reverse]
  exact head?_all_of_all (by rwa [List.all_reverse])

theorem trimEnd_of_stop {text : Text} (stops : text.getLast?.all (fun c => !isBlank c) = true) :
    trimEnd text = text := by
  rw [← List.head?_reverse] at stops
  have kept : text.reverse.dropWhile isBlank = text.reverse :=
    dropWhile_append_of_stop [] rfl stops
  rw [trimEnd, kept, List.reverse_reverse]

theorem trim_append (before : Text) {text : Text} (blank : before.all isBlank = true)
    (starts : text.head?.all (fun c => !isBlank c) = true)
    (stops : text.getLast?.all (fun c => !isBlank c) = true) : trim (before ++ text) = text := by
  rw [trim, trimStart, dropWhile_append_of_stop before blank starts, trimEnd_of_stop stops]

theorem trim_of_solid (before : Text) {text : Text} (blank : before.all isBlank = true)
    (solid : text.all (fun c => !isBlank c) = true) : trim (before ++ text) = text :=
  trim_append before blank (head?_all_of_all solid) (getLast?_all_of_all solid)

theorem exists_blanks_trimStart (text : Text) :
    ∃ before, before.all isBlank = true ∧ text = before ++ trimStart text :=
  ⟨text.takeWhile isBlank, List.all_takeWhile, List.takeWhile_append_dropWhile.symm⟩

theorem exists_trimEnd_blanks (text : Text) :
    ∃ after, after.all isBlank = true ∧ text = trimEnd text ++ after := by
  refine ⟨(text.reverse.takeWhile isBlank).reverse, ?_, ?_⟩
  · rw [List.all_reverse]
    exact List.all_takeWhile
  · rw [trimEnd, ← List.reverse_append, List.takeWhile_append_dropWhile, List.reverse_reverse]

theorem getLast?_trim_stops (text : Text) :
    (trim text).getLast?.all (fun c => !isBlank c) = true := by
  rw [trim, trimEnd, List.getLast?_reverse]
  exact head?_dropWhile_stops isBlank _

theorem trimEnd_opens (text : Text) : trimEnd text <+: text := by
  obtain ⟨after, _, whole⟩ := exists_trimEnd_blanks text
  exact ⟨after, whole.symm⟩

theorem trimStart_suffix (text : Text) : trimStart text <:+ text := List.dropWhile_suffix isBlank

theorem trim_opens (text rest : Text) : ∃ after, trimStart (text ++ rest) = trim text ++ after := by
  by_cases blank : trimStart text = []
  · exact ⟨trimStart (text ++ rest), by simp [trim, blank, trimEnd]⟩
  · obtain ⟨after, whole⟩ := trimEnd_opens (trimStart text)
    have filled : (trimStart text).isEmpty = false := by
      cases same : trimStart text with
      | nil => exact absurd same blank
      | cons => rfl
    refine ⟨after ++ rest, ?_⟩
    calc trimStart (text ++ rest) = trimStart text ++ rest := by
          unfold trimStart at filled ⊢
          rw [List.dropWhile_append, filled]
          rfl
      _ = trim text ++ (after ++ rest) := by rw [trim, ← List.append_assoc, whole]

theorem trimStart_trim (text : Text) : trimStart (trim text) = trim text := by
  have opening := List.head?_dropWhile_not isBlank text
  cases same : trim text with
  | nil => rfl
  | cons c rest =>
    obtain ⟨after, whole⟩ := trimEnd_opens (trimStart text)
    rw [show trimEnd (trimStart text) = c :: rest from same, trimStart] at whole
    rw [← whole] at opening
    have black : isBlank c = false := by simpa using opening
    simp [trimStart, black]

theorem trim_of_blanks {blanks : Text} (blank : blanks.all isBlank = true) (text : Text) :
    trim (blanks ++ text) = trim text := by
  rw [trim, trimStart, List.dropWhile_append_of_pos (List.all_eq_true.mp blank)]
  rfl

theorem trimEnd_append_blanks {blanks : Text} (blank : blanks.all isBlank = true) (text : Text) :
    trimEnd (text ++ blanks) = trimEnd text := by
  have reversed : blanks.reverse.all isBlank = true := by rwa [List.all_reverse]
  rw [trimEnd, List.reverse_append, List.dropWhile_append_of_pos (List.all_eq_true.mp reversed)]
  rfl

theorem trim_append_blanks {blanks : Text} (blank : blanks.all isBlank = true) (text : Text) :
    trim (text ++ blanks) = trim text := by
  cases filled : (trimStart text).isEmpty with
  | false =>
    rw [trim, trimStart, List.dropWhile_append]
    unfold trimStart at filled
    rw [filled, if_neg Bool.false_ne_true, trimEnd_append_blanks blank]
    rfl
  | true =>
    have none : (blanks ++ []).dropWhile isBlank = [] := dropWhile_append_of_stop blanks blank rfl
    rw [List.append_nil] at none
    have same : trimStart (text ++ blanks) = trimStart text := by
      rw [List.isEmpty_iff.mp filled, trimStart, List.dropWhile_append]
      unfold trimStart at filled
      rw [filled, if_pos rfl, none]
    rw [trim, same, trim]

end TypedClient.Text
