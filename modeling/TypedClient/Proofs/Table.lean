import TypedClient.Table
import TypedClient.Text.Basic

/-!
Keys in ascending order. Main statement: however keys are put one after another, each of them stands
once, so that looking a key up finds the one value it has, and changing the value of a key changes
that of no other.
-/

namespace TypedClient.Table

variable {α : Type} {keys : List Text} {table : List (Text × α)}

def Ascending (keys : List Text) : Prop := keys.Pairwise (· < ·)

theorem Ascending.nodup (ascending : Ascending keys) : keys.Nodup := by
  refine ascending.imp fun below same => ?_
  rw [same] at below
  exact List.lt_irrefl _ below

theorem lt_of_not_lt {key other : Text} (different : other ≠ key) (above : ¬ key < other) :
    other < key := by
  by_cases below : other < key
  · exact below
  · exact absurd (List.le_antisymm above below) different

theorem ascending_insertSorted (ascending : Ascending keys) (key : Text) :
    Ascending (insertSorted key keys) := by
  induction keys with
  | nil => exact List.pairwise_singleton _ _
  | cons first rest ih =>
    obtain ⟨below, later⟩ := List.pairwise_cons.mp ascending
    unfold insertSorted
    split
    · exact ascending
    · rename_i different
      split
      · rename_i before
        refine List.pairwise_cons.mpr ⟨fun other member => ?_, ascending⟩
        rcases List.mem_cons.mp member with rfl | member
        · exact before
        · exact List.lt_trans before (below other member)
      · rename_i notBefore
        refine List.pairwise_cons.mpr ⟨fun other member => ?_, ih later⟩
        rcases (mem_insertSorted key other rest).mp member with rfl | member
        · exact lt_of_not_lt different notBefore
        · exact below other member

theorem ascending_sorted (keys : List Text) : Ascending (sorted keys) := by
  have grown : ∀ found, Ascending found →
      Ascending (keys.foldl (fun found key => insertSorted key found) found) := by
    induction keys with
    | nil => exact fun _ ascending => ascending
    | cons key rest ih => exact fun found ascending => ih _ (ascending_insertSorted ascending key)
  exact grown [] List.Pairwise.nil

/-- Changing the value of a key puts the key where it belongs. -/
theorem keys_alter (key : Text) (start : α) (f : α → α) (table : List (Text × α)) :
    (alter key start f table).map (·.1) = insertSorted key (table.map (·.1)) := by
  induction table with
  | nil => rfl
  | cons entry rest ih =>
    obtain ⟨other, value⟩ := entry
    rw [List.map_cons, insertSorted, alter]
    split
    · rfl
    · split
      · rfl
      · rw [List.map_cons, ih]

theorem lookup_cons (key other : Text) (value : α) (rest : List (Text × α)) :
    ((other, value) :: rest).lookup key = if key = other then some value else rest.lookup key := by
  by_cases same : key = other
  · rw [same, if_pos rfl, List.lookup_cons_self]
  · rw [if_neg same, List.lookup_cons, beq_false_of_ne same]

theorem lookup_eq_none {key : Text} (absent : key ∉ table.map (·.1)) : table.lookup key = none := by
  rw [List.lookup_eq_none_iff]
  intro entry member
  have different : key ≠ entry.1 := fun same => absent (same ▸ List.mem_map_of_mem member)
  exact bne_iff_ne.mpr different

/-- Changing the value of a key leaves every other key as it is. -/
theorem lookup_alter (ascending : Ascending (table.map (·.1))) (key other : Text) (start : α)
    (f : α → α) : (alter key start f table).lookup other =
      if other = key then some (f ((table.lookup key).getD start)) else table.lookup other := by
  induction table with
  | nil => exact lookup_cons other key (f start) []
  | cons entry rest ih =>
    obtain ⟨first, value⟩ := entry
    obtain ⟨below, later⟩ := List.pairwise_cons.mp ascending
    unfold alter
    split
    · rename_i here
      rw [lookup_cons, lookup_cons, lookup_cons, here, if_pos rfl]
      split <;> rfl
    · rename_i different
      split
      · rename_i before
        -- the key stands before everything in the table
        have absent : key ∉ ((first, value) :: rest).map (·.1) := by
          intro member
          rcases List.mem_cons.mp member with same | member
          · exact different same.symm
          · exact List.lt_irrefl _ (List.lt_trans before (below key member))
        rw [lookup_cons, lookup_eq_none absent]
        rfl
      · rw [lookup_cons, lookup_cons, lookup_cons, ih later, if_neg (Ne.symm different)]
        by_cases here : other = first
        · rw [if_pos here, if_pos here, if_neg (here ▸ different)]
        · rw [if_neg here, if_neg here]

/-- A key that is new goes to the end. -/
theorem put_of_not_mem {key : Text} (value : α) (fresh : key ∉ table.map (·.1)) :
    put key value table = table ++ [(key, value)] := by
  induction table with
  | nil => rfl
  | cons entry rest ih =>
    obtain ⟨other, held⟩ := entry
    have different : other ≠ key := fun same => fresh (same ▸ List.mem_cons_self)
    have later := ih fun member => fresh (List.mem_cons_of_mem _ member)
    rw [put, if_neg different, later, List.cons_append]

theorem putSorted_above {key : Text} (value : α) (above : ∀ other ∈ table.map (·.1), other < key) :
    putSorted key value table = table ++ [(key, value)] := by
  induction table with
  | nil => rfl
  | cons entry rest ih =>
    obtain ⟨other, held⟩ := entry
    have below : other < key := above other List.mem_cons_self
    have different : other ≠ key := fun same => List.lt_irrefl _ (same ▸ below)
    have notBefore : ¬ key < other := fun before => List.lt_irrefl _ (List.lt_trans below before)
    have later := ih fun name member => above name (List.mem_cons_of_mem _ member)
    unfold putSorted at later ⊢
    rw [alter, if_neg different, if_neg notBefore, later, List.cons_append]

/-- Pairs whose keys ascend are put as they stand. -/
theorem ofSorted_of_ascending (ascending : Ascending (table.map (·.1))) :
    ofSorted table = table := by
  have grown : ∀ (front rest : List (Text × α)), Ascending ((front ++ rest).map (·.1)) →
      rest.foldl (fun table pair => putSorted pair.1 pair.2 table) front = front ++ rest := by
    intro front rest sorted
    induction rest generalizing front with
    | nil => rw [List.append_nil, List.foldl_nil]
    | cons pair rest ih =>
      have above : ∀ other ∈ front.map (·.1), other < pair.1 := by
        rw [List.map_append, Ascending, List.pairwise_append] at sorted
        exact fun other member => sorted.2.2 other member pair.1 List.mem_cons_self
      rw [List.append_cons] at sorted ⊢
      rw [List.foldl_cons, putSorted_above pair.2 above]
      exact ih (front ++ [pair]) sorted
  exact grown [] table ascending

theorem lookup_of_mem (distinct : (table.map (·.1)).Nodup) {key : Text} {value : α}
    (member : (key, value) ∈ table) : table.lookup key = some value := by
  induction table with
  | nil => contradiction
  | cons entry rest ih =>
    obtain ⟨other, held⟩ := entry
    obtain ⟨fresh, distinct⟩ := List.nodup_cons.mp distinct
    rcases List.mem_cons.mp member with same | later
    · cases same
      exact List.lookup_cons_self
    · have different : key ≠ other := by
        rintro rfl
        exact fresh (List.mem_map.mpr ⟨(key, value), later, rfl⟩)
      rw [List.lookup_cons, beq_false_of_ne different]
      exact ih distinct later

end TypedClient.Table
