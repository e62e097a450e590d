import TypedClient.Proofs.Text.Stretch

/-!
Offsets between the characters of a text. Main statement: a text is what stands between two offsets
exactly if it stands at the first one and takes all the bytes up to the other one.
-/

namespace TypedClient.Text

/-- Whether an offset lies between two characters of a text, or at one of its ends. -/
def IsBoundary (text : Text) (offset : Nat) : Prop :=
  ∃ before after, text = before ++ after ∧ before.size = offset

/-- The text between two offsets, unless they are out of order, one of them lies behind the end or
one of them cuts a character. -/
def between? (start stop : Nat) (text : Text) : Option Text :=
  if start ≤ stop then slice? start (stop - start) text else none

variable {text part before after : Text} {start stop offset n : Nat}

theorem size_eq_zero : text.size = 0 ↔ text = [] := by
  cases text with
  | nil => simp
  | cons c rest =>
    have filled := c.utf8Size_pos
    simp
    omega

theorem size_le_of_suffix (ending : part <:+ text) : part.size ≤ text.size := by
  obtain ⟨front, rfl⟩ := ending
  simp

theorem dropBytes_of_le (past : text.size ≤ n) : dropBytes n text = (0, []) := by
  fun_induction dropBytes n text with
  | case1 text => rw [size_eq_zero.mp (Nat.le_zero.mp past)]
  | case2 => rfl
  | case3 n c rest fits ih =>
    rw [size_cons] at past
    exact ih (by omega)
  | case4 n c rest cut =>
    rw [size_cons] at past
    omega

/-- Cutting behind so many bytes splits a text at that offset. -/
theorem cutBytes?_eq_some_iff :
    cutBytes? n text = some (before, after) ↔ text = before ++ after ∧ before.size = n := by
  constructor
  · intro cut
    fun_induction cutBytes? n text generalizing before with
    | case1 text =>
      cases cut
      exact ⟨rfl, rfl⟩
    | case2 => contradiction
    | case3 n c rest fits ih =>
      obtain ⟨⟨front, back⟩, later, same⟩ := Option.map_eq_some_iff.mp cut
      cases same
      obtain ⟨rfl, size⟩ := ih later
      refine ⟨rfl, ?_⟩
      rw [size_cons, size]
      omega
    | case4 => contradiction
  · rintro ⟨rfl, rfl⟩
    exact cutBytes?_append before after

namespace IsBoundary

theorem zero (text : Text) : IsBoundary text 0 := ⟨[], text, rfl, rfl⟩

theorem le (boundary : IsBoundary text offset) : offset ≤ text.size := by
  obtain ⟨before, after, rfl, rfl⟩ := boundary
  simp

/-- A boundary behind the front of a text is one of the rest. -/
theorem of_append (boundary : IsBoundary (before ++ text) (before.size + offset)) :
    IsBoundary text offset := by
  obtain ⟨front, back, whole, size⟩ := boundary
  rcases List.append_eq_append_iff.mp whole with ⟨middle, rfl, rfl⟩ | ⟨middle, rfl, rfl⟩
  · refine ⟨middle, back, rfl, ?_⟩
    rw [size_append] at size
    omega
  · rw [size_append] at size
    have none : offset = 0 := by omega
    exact none ▸ zero text

/-- No boundary cuts the first character. -/
theorem le_of_cons {c : Char} (boundary : IsBoundary (c :: text) offset) (later : 0 < offset) :
    c.utf8Size ≤ offset := by
  obtain ⟨before, after, whole, rfl⟩ := boundary
  cases before with
  | nil => contradiction
  | cons d before =>
    rw [(List.cons.inj whole).1, size_cons]
    exact Nat.le_add_right _ _

end IsBoundary

/-- What stands between two offsets is a part of the text that takes all the bytes between them. -/
theorem between?_eq_some_iff :
    between? start stop text = some part ↔ StandsAt start part text ∧ start + part.size = stop := by
  constructor
  · intro found
    obtain ⟨inOrder, sliced⟩ := Option.ite_none_right_eq_some.mp found
    obtain ⟨⟨front, rest⟩, cut, taken⟩ := Option.bind_eq_some_iff.mp sliced
    obtain ⟨⟨middle, back⟩, again, same⟩ := Option.bind_eq_some_iff.mp taken
    cases same
    obtain ⟨rfl, rfl⟩ := cutBytes?_eq_some_iff.mp cut
    obtain ⟨rfl, size⟩ := cutBytes?_eq_some_iff.mp again
    exact ⟨⟨front, back, by simp, rfl⟩, by omega⟩
  · rintro ⟨stands, rfl⟩
    rw [between?, if_pos (Nat.le_add_right _ _), Nat.add_sub_cancel_left, stands.slice?]

end TypedClient.Text
