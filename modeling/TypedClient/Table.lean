/-! Tables: lists of keys and values in which a key stands at most once. -/

namespace TypedClient.Table

variable {κ α : Type} [DecidableEq κ]

/-- A key already there keeps its place and takes the new value; a new key goes to the end. -/
def put (key : κ) (value : α) : List (κ × α) → List (κ × α)
  | [] => [(key, value)]
  | (k, v) :: rest => if k = key then (k, value) :: rest else (k, v) :: put key value rest

def ofList (pairs : List (κ × α)) : List (κ × α) :=
  pairs.foldl (fun table pair => put pair.1 pair.2 table) []

/-- A key already there keeps its value. -/
def putNew (key : κ) (value : α) : List (κ × α) → List (κ × α)
  | [] => [(key, value)]
  | (k, v) :: rest => if k = key then (k, v) :: rest else (k, v) :: putNew key value rest

def firstsOf (pairs : List (κ × α)) : List (κ × α) :=
  pairs.foldl (fun table pair => putNew pair.1 pair.2 table) []

/-- Changes the value of a key, from `start` if the key is new, and keeps the keys ascending. -/
def alter [LT κ] [DecidableLT κ] (key : κ) (start : α) (f : α → α) :
    List (κ × α) → List (κ × α)
  | [] => [(key, f start)]
  | (k, v) :: rest =>
    if k = key then (k, f v) :: rest
    else if key < k then (key, f start) :: (k, v) :: rest
    else (k, v) :: alter key start f rest

/-- Puts a value and keeps the keys ascending. -/
def putSorted [LT κ] [DecidableLT κ] (key : κ) (value : α) (table : List (κ × α)) :
    List (κ × α) :=
  alter key value (fun _ => value) table

/-- Puts the pairs one after another, keys ascending. -/
def ofSorted [LT κ] [DecidableLT κ] (pairs : List (κ × α)) : List (κ × α) :=
  pairs.foldl (fun table pair => putSorted pair.1 pair.2 table) []

/-- Puts a key among ascending keys unless it is there. -/
def insertSorted [LT κ] [DecidableLT κ] (key : κ) : List κ → List κ
  | [] => [key]
  | k :: rest =>
    if k = key then k :: rest
    else if key < k then key :: k :: rest
    else k :: insertSorted key rest

/-- The keys in ascending order, each once. -/
def sorted [LT κ] [DecidableLT κ] (keys : List κ) : List κ :=
  keys.foldl (fun found key => insertSorted key found) []

theorem mem_insertSorted [LT κ] [DecidableLT κ] (key k : κ) (keys : List κ) :
    k ∈ insertSorted key keys ↔ k = key ∨ k ∈ keys := by
  induction keys with
  | nil => simp [insertSorted]
  | cons head rest ih =>
    unfold insertSorted
    split
    · rename_i same
      simp [same]
    · split
      · simp
      · simp only [List.mem_cons, ih]
        constructor
        · rintro (h | h | h) <;> simp [h]
        · rintro (h | h | h) <;> simp [h]

theorem mem_sorted [LT κ] [DecidableLT κ] {key : κ} {keys : List κ} :
    key ∈ sorted keys ↔ key ∈ keys := by
  have grown : ∀ found : List κ,
      key ∈ keys.foldl (fun found key => insertSorted key found) found ↔
        key ∈ found ∨ key ∈ keys := by
    induction keys with
    | nil => simp
    | cons first rest ih =>
      intro found
      rw [List.foldl_cons, ih, mem_insertSorted, List.mem_cons, or_comm (a := key = first), or_assoc]
  simpa [sorted] using grown []

theorem mem_of_lookup {κ α : Type} [BEq κ] [LawfulBEq κ] {key : κ} {value : α}
    {table : List (κ × α)} (found : table.lookup key = some value) : (key, value) ∈ table := by
  obtain ⟨before, after, rfl, _⟩ := List.lookup_eq_some_iff.mp found
  exact List.mem_append_right before List.mem_cons_self

end TypedClient.Table
