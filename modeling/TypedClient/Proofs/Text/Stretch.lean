import TypedClient.Text.Basic

/-!
Stretches of text at byte offsets. Main statement: cutting out the bytes that a part of a text
takes gives that part.
-/

namespace TypedClient.Text

@[simp] theorem size_nil : size [] = 0 := rfl

@[simp] theorem size_cons (c : Char) (rest : Text) :
    size (c :: rest) = c.utf8Size + size rest := rfl

@[simp] theorem size_append (before after : Text) :
    size (before ++ after) = size before + size after := by
  induction before with
  | nil => simp
  | cons c rest ih => simp [ih, Nat.add_assoc]

theorem cutBytes?_append (before after : Text) :
    cutBytes? (size before) (before ++ after) = some (before, after) := by
  induction before with
  | nil => simp [cutBytes?]
  | cons c rest ih =>
    have filled := Char.utf8Size_pos c
    obtain ⟨n, same⟩ : ∃ n, size (c :: rest) = n + 1 := ⟨c.utf8Size - 1 + size rest, by simp; omega⟩
    have left : n + 1 - c.utf8Size = size rest := by rw [← same, size_cons, Nat.add_sub_cancel_left]
    have fits : c.utf8Size ≤ n + 1 := by rw [← same, size_cons]; exact Nat.le_add_right _ _
    rw [same, List.cons_append, cutBytes?, if_pos fits, left, ih]
    rfl

/-- The part stands in the text at a byte offset. -/
def StandsAt (start : Nat) (part text : Text) : Prop :=
  ∃ before after, text = before ++ part ++ after ∧ before.size = start

namespace StandsAt

variable {start offset : Nat} {part inner text : Text}

theorem slice? (stands : StandsAt start part text) :
    slice? start part.size text = some part := by
  obtain ⟨before, after, rfl, rfl⟩ := stands
  simp [Text.slice?, List.append_assoc, cutBytes?_append]

theorem trans (stands : StandsAt start inner text) (inside : StandsAt offset part inner) :
    StandsAt (start + offset) part text := by
  obtain ⟨before, after, rfl, rfl⟩ := stands
  obtain ⟨front, back, rfl, rfl⟩ := inside
  exact ⟨before ++ front, back ++ after, by simp, size_append before front⟩

theorem of_suffix {rest : Text} (opens : rest = part ++ inner) (ending : rest <:+ text) :
    StandsAt (text.size - rest.size) part text := by
  obtain ⟨before, rfl⟩ := ending
  exact ⟨before, inner, by rw [opens, List.append_assoc], by simp⟩

end StandsAt

end TypedClient.Text
