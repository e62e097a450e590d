import TypedClient.Text.Basic

/-! Names made unique by a number. -/

namespace TypedClient.Name

open Text

/-- The first of `base` with `i`, `base` with `i + 1`, … that is not in `used`. A name found in
`used` is crossed off, so the search ends. -/
def numbered (base : Text) (i : Nat) (used : List Text) : Text :=
  let name := base ++ ofNat i
  if name ∈ used then numbered base (i + 1) (used.erase name) else name
termination_by used.length
decreasing_by
  rename_i taken
  have positive := List.length_pos_of_mem taken
  rw [List.length_erase_of_mem taken]
  omega

/-- `base` if it is free, and otherwise `base` with the smallest number from 2 that makes it so. -/
def unique (base : Text) (used : List Text) : Text :=
  if base ∈ used then numbered base 2 used else base

/-- Makes every name unique among `used` and the names before it. -/
def uniques (used : List Text) : List Text → List Text
  | [] => []
  | base :: rest =>
    let name := unique base used
    name :: uniques (name :: used) rest

end TypedClient.Name
