import TypedClient.Name.Unique

/-!
Names made unique are new: `unique` never gives a name that is used, and `uniques` none twice. Main
statement: each name is its base, or its base with the smallest number from 2 on that was free.
-/

namespace TypedClient.Name

open Text

theorem ofNat_injective {i j : Nat} (same : ofNat i = ofNat j) : i = j := by
  have read := congrArg (Nat.ofDigitChars 10 · 0) same
  simpa only [ofNat, Nat.ofDigitChars_ten_toDigits] using read

/-- The number that is taken is the first to make a name that is not used. A name that was crossed
off has another number than those still to come. -/
theorem numbered_first (base : Text) (i : Nat) (used : List Text) :
    ∃ j, i ≤ j ∧ numbered base i used = base ++ ofNat j ∧ base ++ ofNat j ∉ used ∧
      ∀ k, i ≤ k → k < j → base ++ ofNat k ∈ used := by
  fun_induction numbered base i used with
  | case1 i used name taken ih =>
    obtain ⟨j, later, numbered, free, passed⟩ := ih
    have other : base ++ ofNat j ≠ name := by
      intro same
      have equal := ofNat_injective (List.append_cancel_left same)
      omega
    refine ⟨j, by omega, numbered,
      fun member => free ((List.mem_erase_of_ne other).mpr member), fun k reached below => ?_⟩
    rcases Nat.eq_or_lt_of_le reached with rfl | beyond
    · exact taken
    · exact List.mem_of_mem_erase (passed k beyond below)
  | case2 i used name free =>
    exact ⟨i, Nat.le_refl i, rfl, free,
      fun k reached below => absurd below (Nat.not_lt.mpr reached)⟩

@[simp] theorem length_uniques (used bases : List Text) :
    (uniques used bases).length = bases.length := by
  induction bases generalizing used with
  | nil => rfl
  | cons base rest ih => simp [uniques, ih]

theorem unique_not_mem (base : Text) (used : List Text) : unique base used ∉ used := by
  unfold unique
  split
  · obtain ⟨j, _, numbered, free, _⟩ := numbered_first base 2 used
    rwa [numbered]
  · assumption

theorem not_mem_of_mem_uniques {name : Text} {used bases : List Text}
    (member : name ∈ uniques used bases) : name ∉ used := by
  induction bases generalizing used with
  | nil => contradiction
  | cons base rest ih =>
    rcases List.mem_cons.mp member with rfl | later
    · exact unique_not_mem base used
    · exact fun taken => ih later (List.mem_cons_of_mem _ taken)

theorem nodup_uniques (used bases : List Text) : (uniques used bases).Nodup := by
  induction bases generalizing used with
  | nil => exact List.nodup_nil
  | cons base rest ih =>
    exact List.nodup_cons.mpr
      ⟨fun later => not_mem_of_mem_uniques later List.mem_cons_self, ih _⟩

/-- What a base becomes where some names are taken: itself if it is free, and otherwise itself with
the smallest number from 2 on that makes a free name. -/
def FirstFree (taken : List Text) (base name : Text) : Prop :=
  base ∉ taken ∧ name = base ∨
    base ∈ taken ∧ ∃ i, 2 ≤ i ∧ name = base ++ ofNat i ∧ name ∉ taken ∧
      ∀ j, 2 ≤ j → j < i → base ++ ofNat j ∈ taken

theorem FirstFree.congr {taken others : List Text} {base name : Text}
    (first : FirstFree taken base name) (same : ∀ other, other ∈ taken ↔ other ∈ others) :
    FirstFree others base name := by
  simpa only [FirstFree, same] using first

theorem firstFree_unique (base : Text) (used : List Text) :
    FirstFree used base (unique base used) := by
  unfold unique
  split
  · rename_i taken
    obtain ⟨j, later, numbered, free, passed⟩ := numbered_first base 2 used
    exact .inr ⟨taken, j, later, numbered, numbered ▸ free, passed⟩
  · rename_i free
    exact .inl ⟨free, rfl⟩

/-- Names given to bases in turn, none of them reserved. -/
structure Allotted (reserved bases names : List Text) : Prop where
  length : names.length = bases.length
  nodup : names.Nodup
  unreserved : ∀ name ∈ names, name ∉ reserved
  firstFree : ∀ (i : Nat) (base name : Text), bases[i]? = some base → names[i]? = some name →
    FirstFree (reserved ++ names.take i) base name

theorem allotted_uniques (reserved bases : List Text) :
    Allotted reserved bases (uniques reserved bases) := by
  refine ⟨length_uniques reserved bases, nodup_uniques reserved bases,
    fun name => not_mem_of_mem_uniques, ?_⟩
  induction bases generalizing reserved with
  | nil => exact fun _ _ _ listed => nomatch listed
  | cons head rest ih =>
    intro i base name listed given
    cases i with
    | zero =>
      cases listed
      cases given
      rw [List.take_zero, List.append_nil]
      exact firstFree_unique head reserved
    | succ i =>
      -- the name just given joins those that are taken
      refine (ih (unique head reserved :: reserved) i base name listed given).congr ?_
      intro other
      simp only [uniques, List.take_succ_cons, List.cons_append, List.mem_cons, List.mem_append]
      exact or_left_comm

end TypedClient.Name
