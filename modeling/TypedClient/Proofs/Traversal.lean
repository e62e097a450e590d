import Mathlib.Data.List.Nodup
import Mathlib.Data.List.Pairwise

/-!
Lists gone through item by item. Where no step fails, there is a result for each item, an item paired
with what is made of it is paired with its own, one looked up by its key is found, and items gathered
key by key are gathered once.
-/

namespace TypedClient

theorem mapM_ok {α β ε : Type} {f : α → Except ε β} {holds : β → Prop} {items : List α}
    (each : ∀ item ∈ items, ∃ value, f item = .ok value ∧ holds value) :
    ∃ values, items.mapM f = .ok values ∧ values.length = items.length ∧
      ∀ value ∈ values, holds value := by
  induction items with
  | nil => exact ⟨[], rfl, rfl, fun _ member => nomatch member⟩
  | cons item rest ih =>
    obtain ⟨value, first, here⟩ := each item List.mem_cons_self
    obtain ⟨values, more, length, later⟩ := ih fun other listed =>
      each other (List.mem_cons_of_mem _ listed)
    refine ⟨value :: values, ?_, congrArg (· + 1) length, List.forall_mem_cons.mpr ⟨here, later⟩⟩
    rw [List.mapM_cons, first, more]
    rfl

/-- Under distinct keys an item is found under its own. -/
theorem find?_key {α κ : Type} [DecidableEq κ] {key : α → κ} {items : List α}
    (distinct : (items.map key).Nodup) {item : α} (listed : item ∈ items) :
    items.find? (fun other => key other = key item) = some item := by
  cases found : items.find? fun other => key other = key item with
  | none =>
    have absent := List.find?_eq_none.mp found item listed
    simp at absent
  | some other =>
    have same : key other = key item := by simpa using List.find?_some found
    rw [List.inj_on_of_nodup_map distinct (List.mem_of_find?_eq_some found) listed same]

/-- Gathering the items of each key in turn gives the items that have one of the keys, each as often
as before. -/
theorem flatMap_filter_key_perm {α κ : Type} [DecidableEq κ] (key : α → Option κ) (items : List α)
    {keys : List κ} (distinct : keys.Nodup) :
    (keys.flatMap fun k => items.filter fun item => key item = some k).Perm
      (items.filter fun item => ∃ k ∈ keys, key item = some k) := by
  induction keys with
  | nil => simp
  | cons k rest ih =>
    obtain ⟨fresh, distinct⟩ := List.nodup_cons.mp distinct
    have own : (items.filter fun item => ∃ j ∈ k :: rest, key item = some j).filter
        (fun item => key item = some k) = items.filter fun item => key item = some k := by
      rw [List.filter_filter]
      refine List.filter_congr fun item _ => ?_
      cases key item <;> simp +contextual
    have others : (items.filter fun item => ∃ j ∈ k :: rest, key item = some j).filter
        (fun item => !decide (key item = some k)) =
          items.filter fun item => ∃ j ∈ rest, key item = some j := by
      rw [List.filter_filter]
      refine List.filter_congr fun item _ => ?_
      cases key item with
      | none => simp
      | some other =>
        by_cases same : other = k
        · simp [same, fresh]
        · simp [same]
    rw [List.flatMap_cons]
    refine ((ih distinct).append_left _).trans ?_
    rw [← own, ← others]
    exact List.filter_append_perm _ _

/-- What a pairing has from the first list can be read back from it. -/
theorem map_zipWith_left {α β γ δ : Type} {f : α → β → γ} {g : γ → δ} {h : α → δ}
    (reads : ∀ a b, g (f a b) = h a) {as : List α} {bs : List β}
    (enough : as.length ≤ bs.length) : (List.zipWith f as bs).map g = as.map h := by
  rw [← List.map_uncurry_zip_eq_zipWith, List.map_map, ← List.map_fst_zip enough, List.map_map,
    List.map_fst_zip enough]
  exact List.map_congr_left fun pair _ => reads pair.1 pair.2

/-- What a pairing has from the second list can be read back from it. -/
theorem map_zipWith_right {α β γ δ : Type} {f : α → β → γ} {g : γ → δ} {h : β → δ}
    (reads : ∀ a b, g (f a b) = h b) {as : List α} {bs : List β}
    (enough : bs.length ≤ as.length) : (List.zipWith f as bs).map g = bs.map h := by
  rw [← List.map_uncurry_zip_eq_zipWith, List.map_map, ← List.map_snd_zip enough, List.map_map,
    List.map_snd_zip enough]
  exact List.map_congr_left fun pair _ => reads pair.1 pair.2

theorem mem_zip_zipWith {α β γ : Type} {f : α → β → γ} {a : α} {c : γ} {as : List α} {bs : List β}
    (paired : (a, c) ∈ as.zip (List.zipWith f as bs)) : ∃ b, c = f a b := by
  induction as generalizing bs with
  | nil => contradiction
  | cons first rest ih =>
    cases bs with
    | nil => contradiction
    | cons b more =>
      rcases List.mem_cons.mp paired with same | later
      · cases same
        exact ⟨b, rfl⟩
      · exact ih later

theorem mem_zip_of_zipWith {α β γ δ : Type} {f : α → β → γ} {as : List α} {bs : List β}
    {ds : List δ} {c : γ} {b : β} {d : δ}
    (paired : (c, b, d) ∈ (List.zipWith f as bs).zip (bs.zip ds)) :
    (∃ a ∈ as, c = f a b) ∧ (b, d) ∈ bs.zip ds := by
  refine ⟨?_, (List.of_mem_zip paired).2⟩
  induction as generalizing bs ds with
  | nil => contradiction
  | cons a as ih =>
    cases bs with
    | nil => contradiction
    | cons first bs =>
      cases ds with
      | nil => contradiction
      | cons second ds =>
        rcases List.mem_cons.mp paired with same | later
        · cases same
          exact ⟨a, List.mem_cons_self, rfl⟩
        · obtain ⟨other, listed, made⟩ := ih later
          exact ⟨other, List.mem_cons_of_mem _ listed, made⟩

end TypedClient
