import TypedClient.Proofs.Text.Characters

/-! Lines of a text: where they start, and what they are made of. -/

namespace TypedClient

open Text

/-- Whether a line starts behind a text; `atLineStart` says so of the empty text. -/
def startsLine (atLineStart : Bool) (before : Text) : Bool :=
  (before.getLast?.map (· == '\n')).getD atLineStart

theorem startsLine_cons (atLineStart : Bool) (c : Char) (before : Text) :
    startsLine atLineStart (c :: before) = startsLine (c == '\n') before := by
  unfold startsLine
  rw [List.getLast?_cons]
  cases before.getLast? <;> rfl

theorem join_splitOn (text : Text) : join "\n" (text.splitOn '\n') = text :=
  List.intercalate_splitOn '\n'

theorem subset_of_part {text part : Text} (member : part ∈ text.splitOn '\n') : part ⊆ text := by
  intro c inside
  have within : part <:+: join "\n" (text.splitOn '\n') := infix_join member
  rw [join_splitOn] at within
  exact within.subset inside

/-- A part between line feeds holds none. -/
theorem not_mem_of_part {text part : Text} (member : part ∈ text.splitOn '\n') : '\n' ∉ part := by
  intro inside
  have other := List.all_eq_true.mp (all_of_mem_splitOnP member) '\n' inside
  contradiction

/-- A line holds no line feed. -/
theorem not_mem_of_mem_lines {text line : Text} (member : line ∈ lines text) : '\n' ∉ line := by
  obtain ⟨part, listed, inside⟩ := subset_of_mem_lines member
  intro here
  exact not_mem_of_part listed (inside here)

theorem splitOn_cons (c : Char) (text : Text) : (c :: text).splitOn '\n' =
    if c = '\n' then [] :: text.splitOn '\n' else (text.splitOn '\n').modifyHead (c :: ·) := by
  simp [List.splitOn, List.splitOnP_cons_eq_if_modifyHead]

theorem splitOn_append {opening : Text} (free : '\n' ∉ opening) (rest : Text) :
    ∃ part more, (opening ++ rest).splitOn '\n' = part :: more ∧ opening <+: part := by
  induction opening with
  | nil =>
    have filled : rest.splitOn '\n' ≠ [] := List.splitOn_ne_nil '\n' rest
    obtain ⟨part, more, split⟩ := List.exists_cons_of_ne_nil filled
    exact ⟨part, more, split, List.nil_prefix⟩
  | cons c opening ih =>
    rw [List.mem_cons, not_or] at free
    obtain ⟨part, more, split, opens⟩ := ih free.2
    refine ⟨c :: part, more, ?_, List.cons_prefix_cons.mpr ⟨rfl, opens⟩⟩
    rw [List.cons_append, splitOn_cons, if_neg (Ne.symm free.1), split]
    rfl

/-- What stands behind a line feed opens one of the parts behind the first. -/
theorem exists_part_of_infix {opening text : Text} (free : '\n' ∉ opening)
    (within : '\n' :: opening <:+: text) : ∃ part ∈ (text.splitOn '\n').tail, opening <+: part := by
  obtain ⟨before, after, rfl⟩ := within
  induction before with
  | nil =>
    obtain ⟨part, more, split, opens⟩ := splitOn_append free after
    refine ⟨part, ?_, opens⟩
    rw [List.nil_append, List.cons_append, splitOn_cons, if_pos rfl, split]
    exact List.mem_cons_self
  | cons c before ih =>
    obtain ⟨part, listed, opens⟩ := ih
    refine ⟨part, ?_, opens⟩
    rw [List.cons_append, List.cons_append, splitOn_cons]
    split
    · exact List.mem_of_mem_tail listed
    · cases parts : (before ++ '\n' :: opening ++ after).splitOn '\n' with
      | nil =>
        rw [parts] at listed
        contradiction
      | cons first more =>
        rw [parts] at listed
        exact listed

/-- What stands behind a line feed opens a line. -/
theorem exists_line_of_infix {opening text : Text} (free : '\n' ∉ opening) (filled : opening ≠ [])
    (ending : opening.getLast? ≠ some '\r') (within : '\n' :: opening <:+: text) :
    ∃ line ∈ lines text, opening <+: line := by
  obtain ⟨part, listed, opens⟩ := exists_part_of_infix free within
  exact exists_line_of_part (List.mem_of_mem_tail listed) opens filled ending

/-- Lines with their ends. -/
def unlines (lines : List Text) : Text := lines.flatMap (· ++ ['\n'])

theorem unlines_append (front back : List Text) :
    unlines (front ++ back) = unlines front ++ unlines back :=
  List.flatMap_append

theorem join_unlines {lines : List Text} (filled : lines ≠ []) :
    join "\n" lines ++ ['\n'] = unlines lines := by
  induction lines with
  | nil => exact absurd rfl filled
  | cons first more ih =>
    cases more with
    | nil =>
      rw [join_singleton]
      exact (List.append_nil _).symm
    | cons second more =>
      rw [join_cons_cons, List.append_assoc, List.append_assoc, ih (List.cons_ne_nil _ _)]
      exact (List.append_assoc first ['\n'] _).symm

end TypedClient
