import TypedClient.Proofs.Piece.Tiling
import TypedClient.TypeLiteral.Member

/-!
Members read by offsets. A reader goes over the bytes of a body from one offset to the next, starts
scans anew, jumps behind brackets and cuts texts out between two offsets; a cut can fail. Main
statements: a value ends no earlier than it starts and no later than the body, and every round of
the reader leads further on.
-/

namespace TypedClient

open Text Utf8

section Except

variable {ε α β : Type} {attempt : Except ε α} {b : β}

theorem map_eq_ok {f : α → β} (done : attempt.map f = .ok b) :
    ∃ a, attempt = .ok a ∧ f a = b := by
  cases attempt with
  | error e => cases done
  | ok a => exact ⟨a, rfl, Except.ok.inj done⟩

theorem bind_eq_ok {f : α → Except ε β} (done : attempt >>= f = .ok b) :
    ∃ a, attempt = .ok a ∧ f a = .ok b := by
  cases attempt with
  | error e => cases done
  | ok a => exact ⟨a, rfl, done⟩

end Except

/-- A cut whose ends are out of order or behind the end of the text, or one of them inside a
character. -/
structure BadCut where
  start : Nat
  stop : Nat
  deriving DecidableEq, Repr

def cutOut (body : Text) (start stop : Nat) : Except BadCut Text :=
  match between? start stop body with
  | some part => .ok part
  | none => .error ⟨start, stop⟩

/-- The first piece of a scan that starts at an offset. -/
def pieceAt? (body : Text) (here : Nat) : Option BytePiece := (bytePieces body here).head?

def isKeyByte (byte : UInt8) : Bool := byte.toNat < 128 && isKeyChar (Char.ofNat byte.toNat)

section Bounds

variable {body : Text} {start stop here next angles : Nat} {piece : BytePiece}

theorem pieceAt?_bounds (found : pieceAt? body here = some piece) :
    piece.start = here ∧ here < piece.stop ∧ piece.stop ≤ body.size := by
  obtain ⟨rest, whole⟩ := List.head?_eq_some_iff.mp found
  by_cases within : here ≤ body.size
  · have tiles := tiles_bytePieces within
    rw [whole] at tiles
    obtain ⟨_, wide, last⟩ := tiles.bounds List.mem_cons_self
    cases tiles with
    | cons starts _ _ => exact ⟨starts, starts ▸ wide, last⟩
  · have past : (encode body).length ≤ here := by
      rw [length_encode]
      omega
    rw [bytePieces, List.drop_eq_nil_of_le past] at whole
    contradiction

theorem skipTriviaFrom_of_le (past : body.size ≤ here) :
    skipTriviaFrom body here = body.size := by
  rw [skipTriviaFrom, dropBytes_of_le past]
  simp [pieces, skipTrivia]

theorem skipTriviaFrom_bounds (within : here ≤ body.size) :
    here ≤ skipTriviaFrom body here ∧ skipTriviaFrom body here ≤ body.size := by
  unfold skipTriviaFrom
  split
  · rename_i rest dropped
    refine ⟨?_, Nat.sub_le _ _⟩
    cases rest with
    | nil => simpa [pieces, skipTrivia] using within
    | cons c rest =>
      obtain ⟨lead, rfl, rfl⟩ := exists_lead dropped (List.cons_ne_nil c rest)
      obtain ⟨skipped, whole⟩ := List.dropWhile_suffix (l := pieces (c :: rest)) Piece.isTrivia
      have sizes := congrArg (fun found => (textOf found).size) whole
      simp only [textOf_append, textOf_pieces, size_append] at sizes
      rw [size_append, skipTrivia]
      omega
  · exact ⟨Nat.le_refl _, within⟩

theorem le_skipTriviaFrom (inside : skipTriviaFrom body here < body.size) :
    here ≤ skipTriviaFrom body here := by
  by_contra! past
  have within : here ≤ body.size := by
    by_contra! behind
    rw [skipTriviaFrom_of_le (Nat.le_of_lt behind)] at inside
    exact Nat.lt_irrefl _ inside
  exact absurd past (Nat.not_lt.mpr (skipTriviaFrom_bounds within).1)

theorem closingOffset_bounds (closed : closingOffset body here = .ok stop) :
    here < stop ∧ stop < body.size := by
  rcases opening_cases body here with ⟨lead, c, closer, rest, rfl, rfl, pair, _⟩ | ⟨_, failed⟩
  · rw [closingOffset_append pair] at closed
    split at closed
    · rename_i inner after split
      cases closed
      have sizes := congrArg (fun found => (textOf found).size) (splitClose_append split)
      obtain ⟨_, _, _, _, one, oneMore⟩ := plain_of_closing? pair
      simp only [textOf_pieces, textOf_append, textOf_cons, Piece.text, size_append, size_cons,
        size_nil, oneMore] at sizes
      rw [size_append, size_cons, one]
      omega
    · contradiction
  · rw [failed] at closed
    contradiction

end Bounds

/-- Whether this byte stands at an offset. -/
def byteIs (body : Text) (here : Nat) (mark : Char) : Bool :=
  (encode body)[here]? == some (byteOf mark)

theorem lt_of_byteIs {body : Text} {here : Nat} {mark : Char} (is : byteIs body here mark = true) :
    here < body.size := by
  rw [← length_encode]
  exact (List.getElem?_eq_some_iff.mp (eq_of_beq is)).1

/-- The offset of the first code or quoted span that is neither a blank nor a separator. -/
def separatorsEnd (body : Text) (here : Nat) : Nat :=
  let next := skipTriviaFrom body here
  if byteIs body next ';' || byteIs body next ',' then separatorsEnd body (next + 1) else next
termination_by body.size - here
decreasing_by
  rename_i separator
  have same : next = skipTriviaFrom body here := rfl
  rw [Bool.or_eq_true, same] at separator
  have inside := separator.elim lt_of_byteIs lt_of_byteIs
  have onward := le_skipTriviaFrom inside
  omega

theorem separatorsEnd_bounds {body : Text} {here : Nat} (within : here ≤ body.size) :
    here ≤ separatorsEnd body here ∧ separatorsEnd body here ≤ body.size := by
  fun_induction separatorsEnd body here with
  | case1 here next separator ih =>
    have onward := skipTriviaFrom_bounds within
    rw [Bool.or_eq_true] at separator
    have inside := separator.elim lt_of_byteIs lt_of_byteIs
    obtain ⟨low, high⟩ := ih inside
    exact ⟨Nat.le_trans onward.1 (Nat.le_trans (Nat.le_succ next) low), high⟩
  | case2 here next _ => exact skipTriviaFrom_bounds within

def unescapeQuotes (text : Text) : Text := replace "\\'" "'" (replace "\\\"" "\"" text)

/-- The key at an offset and the offset behind it: a text in single or double quotes, an index
signature or a run of key bytes. -/
def keyAt (body : Text) (here : Nat) : Except BadCut (Option (Text × Nat)) :=
  if byteIs body here '"' || byteIs body here '\'' then
    match pieceAt? body here with
    | some (.quoted start stop) =>
      .ok ((between? (start + 1) (stop - 1) body).map fun inner => (unescapeQuotes inner, stop))
    | _ => .ok none
  else if byteIs body here '[' then
    match closingOffset body here with
    | .ok close => (cutOut body here (close + 1)).map fun key => some (key, close + 1)
    | .error _ => .ok none
  else if (encode body)[here]?.any isKeyByte then
    let stop := here + (((encode body).drop here).takeWhile isKeyByte).length
    (cutOut body here stop).map fun key => some (key, stop)
  else .ok none

/-- Reads over "readonly" where another key follows it after a blank or comment. -/
def modifiedKeyAt (body : Text) (here : Nat) : Except BadCut (Option (Text × Nat)) := do
  match ← keyAt body here with
  | none => return none
  | some (name, stop) =>
    let next := skipTriviaFrom body stop
    if name = "readonly" ∧ stop < next then
      return some ((← keyAt body next).getD (name, stop))
    else return some (name, stop)

/-- Whether an optional mark stands behind a key, and the offset of what follows both. -/
def markAt (body : Text) (here : Nat) : Bool × Nat :=
  let next := skipTriviaFrom body here
  if byteIs body next '?' then (true, skipTriviaFrom body (next + 1)) else (false, next)

/-- Whether a line feed ends a value that starts at an offset: what stands before it does not ask
for more, and a member stands after it. -/
def endsLineAt (body : Text) (start newline : Nat) : Except BadCut Bool := do
  let before ← cutOut body start newline
  if (trimEnd before).getLast?.any (!asksForMore ·) then
    let after ← cutOut body (skipTriviaFrom body (newline + 1)) body.size
    return opensWithMember after
  else return false

/-- What a byte of code makes of a value. -/
inductive ValueStep
  | ends
  | goesOn (angles next : Nat)
  /-- A bracket that is never closed takes all that is left. -/
  | takesRest
  deriving DecidableEq, Repr

/-- Whether a closing angle bracket at an offset stands right behind an equals sign. -/
def isArrowAt (body : Text) (here : Nat) : Bool := 0 < here && byteIs body (here - 1) '='

/-- The step at a byte of code in a value, with so many angle brackets open. -/
def valueStep (body : Text) (start angles here : Nat) : Except BadCut ValueStep :=
  if ((encode body)[here]?.bind closingByte?).isSome then
    match closingOffset body here with
    | .ok close => .ok (.goesOn angles (close + 1))
    | .error _ => .ok .takesRest
  else if byteIs body here '<' then .ok (.goesOn (angles + 1) (here + 1))
  else if byteIs body here '>' then
    .ok (.goesOn (if isArrowAt body here then angles else angles - 1) (here + 1))
  else if (byteIs body here ';' || byteIs body here ',') && angles == 0 then .ok .ends
  else if byteIs body here '\n' && angles == 0 then
    (endsLineAt body start here).map fun ends => if ends then .ends else .goesOn angles (here + 1)
  else .ok (.goesOn angles (here + 1))

section Values

variable {body : Text} {start stop angles here next : Nat}

theorem valueStep_bounds {more : Nat} (inside : here < body.size)
    (step : valueStep body start angles here = .ok (.goesOn more next)) :
    here < next ∧ next ≤ body.size := by
  have onward : next = here + 1 → here < next ∧ next ≤ body.size := by omega
  unfold valueStep at step
  split at step
  · split at step
    · rename_i closed
      cases step
      obtain ⟨low, high⟩ := closingOffset_bounds closed
      omega
    · cases step
  split at step
  · cases step
    exact onward rfl
  split at step
  · cases step
    exact onward rfl
  split at step
  · cases step
  split at step
  · obtain ⟨ends, _, same⟩ := map_eq_ok step
    split at same <;> cases same
    exact onward rfl
  · cases step
    exact onward rfl

/-- Where the value that starts at one offset ends, read on from another one. -/
def valueEndFrom (body : Text) (start angles here : Nat) : Except BadCut Nat :=
  match _found : pieceAt? body here with
  | none => .ok body.size
  | some (.quoted _ stop) | some (.comment _ stop) => valueEndFrom body start angles stop
  | some (.code index) =>
    match _step : valueStep body start angles index with
    | .error bad => .error bad
    | .ok .ends => .ok index
    | .ok .takesRest => .ok body.size
    | .ok (.goesOn angles next) => valueEndFrom body start angles next
termination_by body.size - here
decreasing_by
  · obtain ⟨_, wide, last⟩ := pieceAt?_bounds _found
    exact Nat.sub_lt_sub_left (Nat.lt_of_lt_of_le wide last) wide
  · obtain ⟨_, wide, last⟩ := pieceAt?_bounds _found
    exact Nat.sub_lt_sub_left (Nat.lt_of_lt_of_le wide last) wide
  · obtain ⟨rfl, wide, last⟩ := pieceAt?_bounds _found
    have inside := Nat.lt_of_lt_of_le wide last
    exact Nat.sub_lt_sub_left inside (valueStep_bounds inside _step).1

/-- The offset of the separator or line feed that ends a value, or the size of the body. -/
def valueEnd (body : Text) (start : Nat) : Except BadCut Nat := valueEndFrom body start 0 start

theorem valueEndFrom_bounds (within : here ≤ body.size)
    (ended : valueEndFrom body start angles here = .ok stop) :
    here ≤ stop ∧ stop ≤ body.size := by
  fun_induction valueEndFrom body start angles here with
  | case1 angles here _ =>
    cases ended
    exact ⟨within, Nat.le_refl _⟩
  | case2 angles here first last found ih =>
    obtain ⟨_, wide, most⟩ := pieceAt?_bounds found
    obtain ⟨low, high⟩ := ih most ended
    exact ⟨Nat.le_trans (Nat.le_of_lt wide) low, high⟩
  | case3 angles here first last found ih =>
    obtain ⟨_, wide, most⟩ := pieceAt?_bounds found
    obtain ⟨low, high⟩ := ih most ended
    exact ⟨Nat.le_trans (Nat.le_of_lt wide) low, high⟩
  | case4 => contradiction
  | case5 angles here index found step =>
    cases ended
    obtain ⟨rfl, wide, most⟩ := pieceAt?_bounds found
    exact ⟨Nat.le_refl _, within⟩
  | case6 angles here index found step =>
    cases ended
    exact ⟨within, Nat.le_refl _⟩
  | case7 angles here index found more next step ih =>
    obtain ⟨rfl, wide, most⟩ := pieceAt?_bounds found
    obtain ⟨onward, most⟩ := valueStep_bounds (Nat.lt_of_lt_of_le wide most) step
    obtain ⟨low, high⟩ := ih most ended
    exact ⟨Nat.le_trans (Nat.le_of_lt onward) low, high⟩

/-- A value ends no earlier than it starts and no later than the body. -/
theorem valueEnd_bounds (within : start ≤ body.size) (ended : valueEnd body start = .ok stop) :
    start ≤ stop ∧ stop ≤ body.size :=
  valueEndFrom_bounds within ended

end Values

/-- A member and the offset of its value. -/
structure Located where
  member : Member
  start : Nat
  deriving DecidableEq, Repr

/-- Passes over what is no member, up to behind what ends it. -/
def passOver (body : Text) (start : Nat) : Except BadCut (Option Located × Nat) :=
  (valueEnd body start).map fun stop => (none, stop + 1)

/-- The member with this key whose value starts at an offset, and the offset behind what ends it. -/
def valueAt (body name : Text) (optional : Bool) (start : Nat) :
    Except BadCut (Option Located × Nat) := do
  let stop ← valueEnd body start
  let value ← cutOut body start stop
  let blanks : Text := value.takeWhile isBlank
  return (some ⟨⟨name, optional, trim value⟩, start + blanks.size⟩, stop + 1)

/-- The member at an offset, if there is one, and the offset behind what ends it. -/
def memberAt (body : Text) (here : Nat) : Except BadCut (Option Located × Nat) := do
  match ← modifiedKeyAt body here with
  | none => passOver body here
  | some (name, behind) =>
    let marked := markAt body behind
    if byteIs body marked.2 ':' then valueAt body name marked.1 (marked.2 + 1)
    else passOver body marked.2

/-- One round of the reader, unless the body ends: over separators, then over a member or what is
none. -/
def roundAt (body : Text) (here : Nat) : Except BadCut (Option (Option Located × Nat)) :=
  if separatorsEnd body here < body.size then
    (memberAt body (separatorsEnd body here)).map some
  else .ok none

section Rounds

variable {body : Text} {here stop next : Nat} {name : Text} {found : Option Located}

theorem keyAt_bounds (read : keyAt body here = .ok (some (name, stop))) :
    here < stop ∧ stop ≤ body.size := by
  unfold keyAt at read
  split at read
  · split at read
    · rename_i first last piece
      obtain ⟨_, _, same⟩ := Option.map_eq_some_iff.mp (Except.ok.inj read)
      cases same
      exact (pieceAt?_bounds piece).2
    · cases read
  split at read
  · split at read
    · rename_i close closed
      obtain ⟨_, _, same⟩ := map_eq_ok read
      cases same
      obtain ⟨low, high⟩ := closingOffset_bounds closed
      exact ⟨Nat.lt_succ_of_lt low, high⟩
    · cases read
  split at read
  · rename_i key
    obtain ⟨_, _, same⟩ := map_eq_ok read
    cases same
    obtain ⟨byte, known, key⟩ := (Option.any_eq_true _ _).mp key
    obtain ⟨inside, rfl⟩ := List.getElem?_eq_some_iff.mp known
    have run := (List.takeWhile_prefix isKeyByte (l := (encode body).drop here)).length_le
    have first : 0 < (((encode body).drop here).takeWhile isKeyByte).length := by
      rw [List.drop_eq_getElem_cons inside, List.takeWhile_cons_of_pos key, List.length_cons]
      omega
    rw [List.length_drop] at run
    rw [length_encode] at run inside
    omega
  · cases read

theorem modifiedKeyAt_bounds (read : modifiedKeyAt body here = .ok (some (name, stop))) :
    here < stop ∧ stop ≤ body.size := by
  obtain ⟨key, first, read⟩ := bind_eq_ok read
  cases key with
  | none => cases read
  | some key =>
    have outer := keyAt_bounds first
    dsimp only at read
    split at read
    · rename_i modified
      obtain ⟨second, again, read⟩ := bind_eq_ok read
      cases second with
      | none =>
        cases read
        exact outer
      | some inner =>
        cases read
        have later := keyAt_bounds again
        exact ⟨by omega, later.2⟩
    · cases read
      exact outer

theorem markAt_bounds (within : here ≤ body.size) :
    here ≤ (markAt body here).2 ∧ (markAt body here).2 ≤ body.size := by
  have first := skipTriviaFrom_bounds within
  unfold markAt
  dsimp only
  split
  · rename_i mark
    obtain ⟨low, high⟩ := skipTriviaFrom_bounds (Nat.succ_le_of_lt (lt_of_byteIs mark))
    exact ⟨Nat.le_trans first.1 (Nat.le_trans (Nat.le_succ _) low), high⟩
  · exact first

theorem passOver_bounds (within : here ≤ body.size)
    (passed : passOver body here = .ok (found, next)) :
    here < next ∧ next ≤ body.size + 1 := by
  obtain ⟨stop, ended, same⟩ := map_eq_ok passed
  cases same
  have bounds := valueEnd_bounds within ended
  omega

theorem valueAt_bounds {optional : Bool} (within : here ≤ body.size)
    (read : valueAt body name optional here = .ok (found, next)) :
    here < next ∧ next ≤ body.size + 1 := by
  obtain ⟨stop, ended, read⟩ := bind_eq_ok read
  obtain ⟨value, _, read⟩ := bind_eq_ok read
  cases read
  have bounds := valueEnd_bounds within ended
  omega

theorem memberAt_bounds (inside : here < body.size)
    (read : memberAt body here = .ok (found, next)) :
    here < next ∧ next ≤ body.size + 1 := by
  obtain ⟨key, modified, read⟩ := bind_eq_ok read
  cases key with
  | none => exact passOver_bounds (Nat.le_of_lt inside) read
  | some key =>
    obtain ⟨onward, within⟩ := modifiedKeyAt_bounds modified
    have mark := markAt_bounds within
    dsimp only at read
    split at read
    · rename_i colon
      have bounds := valueAt_bounds (Nat.succ_le_of_lt (lt_of_byteIs colon)) read
      omega
    · have bounds := passOver_bounds mark.2 read
      omega

/-- Every round leads further on. -/
theorem roundAt_onward (within : here ≤ body.size)
    (round : roundAt body here = .ok (some (found, next))) :
    here < next ∧ next ≤ body.size + 1 := by
  unfold roundAt at round
  split at round
  · rename_i inside
    obtain ⟨_, read, same⟩ := map_eq_ok round
    cases same
    obtain ⟨onward, last⟩ := memberAt_bounds inside read
    exact ⟨Nat.lt_of_le_of_lt (separatorsEnd_bounds within).1 onward, last⟩
  · cases round

end Rounds

/-- The members that are read from an offset on, round by round. -/
def locatedFrom (body : Text) (here : Nat) : Except BadCut (List Located) :=
  if _inside : here < body.size then
    match _round : roundAt body here with
    | .error bad => .error bad
    | .ok none => .ok []
    | .ok (some (found, next)) => (locatedFrom body next).map (found.toList ++ ·)
  else .ok []
termination_by body.size - here
decreasing_by
  have onward := roundAt_onward (Nat.le_of_lt _inside) _round
  omega

end TypedClient
