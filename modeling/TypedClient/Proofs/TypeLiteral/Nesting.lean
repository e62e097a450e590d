import TypedClient.TypeLiteral.Member

/-!
How deep the characters of a value stand in brackets. A reader of values keeps the outermost bracket
pair only. Main statement: it is at no loss for that, and reads a value whose brackets nest up to
the separator behind it.
-/

namespace TypedClient

def isCloser (c : Char) : Bool := c == '}' || c == ']' || c == ')'

/-- Whether a character separates members where it stands in no brackets. -/
def separates (c : Char) : Bool := c == ';' || c == ',' || c == '\n'

theorem isCloser_of_closing? {opening closing : Char} (pair : closing? opening = some closing) :
    isCloser closing = true := by
  unfold closing? at pair
  split at pair <;> cases pair <;> rfl

theorem closing?_of_isCloser {c : Char} (closer : isCloser c = true) : closing? c = none := by
  simp only [isCloser, Bool.or_eq_true, beq_iff_eq] at closer
  rcases closer with (rfl | rfl) | rfl <;> rfl

theorem eq_of_closing? {first second closing : Char} (one : closing? first = some closing)
    (other : closing? second = some closing) : first = second := by
  unfold closing? at one other
  split at one <;> cases one <;> split at other <;> first | rfl | contradiction

/-- How deep a character of code stands. -/
structure Nesting where
  /-- The brackets that are still to come, innermost first. -/
  closers : List Char
  /-- The angle brackets open outside all bracket pairs. -/
  angles : Nat
  deriving DecidableEq, Repr

namespace Nesting

def outer : Nesting := ⟨[], 0⟩

/-- The level behind a character of code, if the character may stand there: a closing bracket where
its pair is the innermost one, a closing angle bracket where one is open, and a separator where
brackets or angle brackets are. A `>` right after `=` is no bracket. -/
def next? (level : Nesting) (previous : Option Char) (c : Char) : Option Nesting :=
  match closing? c, level.closers with
  | some closer, closers => some { level with closers := closer :: closers }
  | none, closer :: closers =>
    if c = closer then some { level with closers } else if isCloser c then none else some level
  | none, [] =>
    if isCloser c then none
    else if c = '<' then some { level with angles := level.angles + 1 }
    else if c = '>' ∧ previous ≠ some '=' then
      match level.angles with
      | 0 => none
      | angles + 1 => some { level with angles }
    else if level.angles = 0 ∧ separates c then none
    else some level

/-- Whether pieces lead from a level to the outermost one. -/
def returns (level : Nesting) (previous : Option Char) : List Piece → Bool
  | [] => level = outer
  | .code c :: rest =>
    match level.next? previous c with
    | some level => level.returns (some c) rest
    | none => false
  | piece :: rest => level.returns (piece.text.getLast?.or previous) rest

variable {level next : Nesting} {previous : Option Char} {c : Char} {closers : List Char}

/-- In a bracket pair a character opens another one, closes the innermost one or is no bracket. -/
theorem next?_inside {closer : Char} (inside : level.closers = closer :: closers)
    (step : level.next? previous c = some next) :
    next.angles = level.angles ∧
      ((∃ opened, closing? c = some opened ∧ next.closers = opened :: closer :: closers) ∨
        (closing? c = none ∧ c = closer ∧ next.closers = closers) ∨
        (closing? c = none ∧ isCloser c = false ∧ next.closers = closer :: closers)) := by
  unfold next? at step
  rw [inside] at step
  cases opens : closing? c with
  | some opened =>
    rw [opens] at step
    cases step
    exact ⟨rfl, .inl ⟨opened, rfl, rfl⟩⟩
  | none =>
    simp only [opens] at step
    split at step
    · rename_i same
      cases step
      exact ⟨rfl, .inr (.inl ⟨rfl, same, rfl⟩)⟩
    · split at step
      · contradiction
      · rename_i plain
        cases step
        exact ⟨rfl, .inr (.inr ⟨rfl, by simpa using plain, inside⟩)⟩

/-- Outside all pairs a character opens one, is an angle bracket, or is neither, and then it is a
separator only where angle brackets are open. -/
theorem next?_outside (outside : level.closers = [])
    (step : level.next? previous c = some next) :
    (∃ opened, closing? c = some opened ∧ next = ⟨[opened], level.angles⟩) ∨
      (c = '<' ∧ next = ⟨[], level.angles + 1⟩) ∨
      (c = '>' ∧ previous ≠ some '=' ∧ next.closers = [] ∧ level.angles = next.angles + 1) ∨
      (closing? c = none ∧ c ≠ '<' ∧ (c = '>' → previous = some '=') ∧
        (level.angles = 0 → separates c = false) ∧ next = level) := by
  unfold next? at step
  rw [outside] at step
  cases opens : closing? c with
  | some opened =>
    simp only [opens, Option.some.injEq] at step
    exact .inl ⟨opened, rfl, step.symm⟩
  | none =>
    simp only [opens] at step
    split at step
    · contradiction
    split at step
    · rename_i opening
      exact .inr (.inl ⟨opening, (Option.some.inj step).symm⟩)
    split at step
    · rename_i closes
      split at step
      · contradiction
      · rename_i angles more
        cases step
        exact .inr (.inr (.inl ⟨closes.1, closes.2, rfl, more⟩))
    split at step
    · contradiction
    · rename_i notOpening arrow plain
      refine .inr (.inr (.inr ⟨rfl, notOpening, fun closes => ?_, fun none => ?_,
        (Option.some.inj step).symm⟩))
      · simpa [closes] using arrow
      · simpa [none] using plain

section Tracked

variable {pair : OpenPair}

/-- What a reader of values keeps of the open brackets: the outermost pair, and how many more of
its kind are open inside. -/
def Tracked (closers : List Char) : Option OpenPair → Prop
  | none => closers = []
  | some pair => closing? pair.opening = some pair.closing ∧
    ∃ inner, closers = inner ++ [pair.closing] ∧ pair.depth = inner.count pair.closing

theorem tracked_open {opened : Char} (tracked : Tracked closers (some pair))
    (opens : closing? c = some opened) : Tracked (opened :: closers) (pair.next c) := by
  obtain ⟨known, inner, around, depth⟩ := tracked
  have within : opened :: closers = opened :: inner ++ [pair.closing] := by
    rw [around, List.cons_append]
  by_cases same : c = pair.opening
  · have own : opened = pair.closing := by
      rw [same, known] at opens
      exact (Option.some.inj opens).symm
    rw [OpenPair.next, if_pos same]
    exact ⟨known, opened :: inner, within, by simp [own, depth]⟩
  · have own : opened ≠ pair.closing := fun equal =>
      same (eq_of_closing? opens (equal ▸ known))
    have other : c ≠ pair.closing := fun equal => by
      rw [equal, closing?_of_isCloser (isCloser_of_closing? known)] at opens
      contradiction
    rw [OpenPair.next, if_neg same, if_neg other]
    exact ⟨known, opened :: inner, within, by simp [own, depth]⟩

theorem ne_opening (tracked : Tracked closers (some pair)) (plain : closing? c = none) :
    c ≠ pair.opening := by
  rintro rfl
  rw [tracked.1] at plain
  contradiction

theorem tracked_close (tracked : Tracked (c :: closers) (some pair)) (plain : closing? c = none) :
    Tracked closers (pair.next c) := by
  rw [OpenPair.next, if_neg (ne_opening tracked plain)]
  obtain ⟨known, inner, around, depth⟩ := tracked
  cases inner with
  | nil =>
    -- The outermost pair itself is closed.
    obtain ⟨rfl, rfl⟩ := List.cons.inj around
    rw [if_pos rfl, depth]
    rfl
  | cons first inner =>
    obtain ⟨rfl, rfl⟩ := List.cons.inj around
    by_cases own : c = pair.closing
    · have more : pair.depth = inner.count pair.closing + 1 := by simp [depth, own]
      rw [if_pos own, more]
      exact ⟨known, inner, rfl, rfl⟩
    · rw [if_neg own]
      exact ⟨known, inner, rfl, by simp [depth, own]⟩

theorem tracked_other (tracked : Tracked closers (some pair)) (plain : closing? c = none)
    (notCloser : isCloser c = false) : Tracked closers (pair.next c) := by
  have other : c ≠ pair.closing := fun equal => by
    rw [equal, isCloser_of_closing? tracked.1] at notCloser
    contradiction
  rw [OpenPair.next, if_neg (ne_opening tracked plain), if_neg other]
  exact tracked

/-- In a pair every character keeps the reader on track, and angle brackets do not count. -/
theorem tracked_next (tracked : Tracked level.closers (some pair))
    (step : level.next? previous c = some next) :
    Tracked next.closers (pair.next c) ∧ next.angles = level.angles := by
  obtain ⟨closer, closers, inside⟩ : ∃ closer closers, level.closers = closer :: closers := by
    obtain ⟨_, inner, around, _⟩ := tracked
    exact List.exists_cons_of_ne_nil (by simp [around])
  rw [inside] at tracked
  obtain ⟨angles, ⟨opened, opens, same⟩ | ⟨plain, rfl, same⟩ | ⟨plain, notCloser, same⟩⟩ :=
    next?_inside inside step
  · exact ⟨same ▸ tracked_open tracked opens, angles⟩
  · exact ⟨same ▸ tracked_close tracked plain, angles⟩
  · exact ⟨same ▸ tracked_other tracked plain notCloser, angles⟩

/-- Outside all pairs the reader goes on, with the same angle brackets, wherever a character of a
value may stand. -/
theorem tracked_start {before : Text} (outside : level.closers = [])
    (agrees : previous = some '=' ↔ before.head? = some '=')
    (step : level.next? previous c = some next) (after : List Piece) :
    endsValue level.angles before c after = false ∧
      Tracked next.closers (OpenPair.start? c) ∧
      next.angles = nextAngles level.angles before c := by
  rcases next?_outside outside step with ⟨opened, opens, rfl⟩ | ⟨rfl, rfl⟩ |
    ⟨rfl, bracket, none, fewer⟩ | ⟨plain, notOpening, arrow, inert, rfl⟩
  · have start : OpenPair.start? c = some ⟨c, opened, 0⟩ := by
      rw [OpenPair.start?, opens]
      rfl
    have opening : c = '{' ∨ c = '[' ∨ c = '(' := by
      unfold closing? at opens
      split at opens <;> first | contradiction | simp
    refine ⟨?_, start ▸ ⟨opens, [], rfl, rfl⟩, ?_⟩
    · rcases opening with rfl | rfl | rfl <;> simp [endsValue]
    · rcases opening with rfl | rfl | rfl <;> rfl
  · exact ⟨by simp [endsValue], rfl, rfl⟩
  · have notArrow : before.head? ≠ some '=' := fun equals => bracket (agrees.mpr equals)
    refine ⟨by simp [endsValue], none, ?_⟩
    rw [nextAngles, if_neg (by decide), if_pos rfl, if_neg notArrow, fewer, Nat.add_sub_cancel]
  · have start : OpenPair.start? c = none := by
      rw [OpenPair.start?, plain]
      rfl
    refine ⟨?_, start ▸ outside, ?_⟩
    · cases angles : next.angles with
      | zero =>
        have notSeparator := inert angles
        simp only [separates, Bool.or_eq_false_iff] at notSeparator
        simp [endsValue, notSeparator]
      | succ more => simp [endsValue]
    · rw [nextAngles, if_neg notOpening]
      split
      · rename_i closes
        rw [if_pos (agrees.mp (arrow closes))]
      · rfl

end Tracked

/-- A reader goes over pieces that lead back to the outermost level, whatever follows them. -/
theorem splitValue_append_of_returns {pair : Option OpenPair} {before : Text} {found : List Piece}
    (returns : level.returns previous found = true) (tracked : Tracked level.closers pair)
    (agrees : previous = some '=' ↔ before.head? = some '=') (after : List Piece) :
    splitValue level.angles pair before (found ++ after) =
      (found ++ (splitValue 0 none ((textOf found).reverse ++ before) after).1,
        (splitValue 0 none ((textOf found).reverse ++ before) after).2) := by
  -- The induction follows the level; that the reader tracks it is the invariant.
  fun_induction Nesting.returns level previous found generalizing pair before with
  | case1 level previous =>
    obtain rfl : level = outer := of_decide_eq_true returns
    cases pair with
    | some pair =>
      obtain ⟨_, inner, within, _⟩ := tracked
      simp [outer] at within
    | none => rfl
  | case2 level previous c rest next step ih =>
    have same : some c = some '=' ↔ (c :: before).head? = some '=' := Iff.rfl
    have read : (textOf rest).reverse ++ c :: before =
        (textOf (.code c :: rest)).reverse ++ before := by
      simp [Piece.text]
    rw [List.cons_append]
    cases pair with
    | some pair =>
      obtain ⟨inside, angles⟩ := tracked_next tracked step
      have later := ih returns inside same
      rw [angles, read] at later
      rw [splitValue, later]
      rfl
    | none =>
      obtain ⟨goesOn, inside, angles⟩ := tracked_start tracked agrees step (rest ++ after)
      have later := ih returns inside same
      rw [angles, read] at later
      rw [splitValue, goesOn, later]
      rfl
  | case3 => contradiction
  | case4 level previous piece rest other ih =>
    have same : piece.text.getLast?.or previous = some '=' ↔
        (piece.text.reverse ++ before).head? = some '=' := by
      rw [List.head?_append, List.head?_reverse]
      cases piece.text.getLast? with
      | some last => exact Iff.rfl
      | none => exact agrees
    have read : (textOf rest).reverse ++ (piece.text.reverse ++ before) =
        (textOf (piece :: rest)).reverse ++ before := by
      simp
    have later := ih returns tracked same
    rw [read] at later
    rw [List.cons_append, splitValue, later]
    · rfl
    · exact other

/-- A value whose pieces lead back to the outermost level is read up to a separator behind it. -/
theorem splitValue_of_returns {pair : Option OpenPair} {before : Text} {found : List Piece}
    (returns : level.returns previous found = true) (tracked : Tracked level.closers pair)
    (agrees : previous = some '=' ↔ before.head? = some '=') {separator : Char}
    (separates : separator = ';' ∨ separator = ',') (after : List Piece) :
    splitValue level.angles pair before (found ++ .code separator :: after) =
      (found, .code separator :: after) := by
  have ends (before : Text) : endsValue 0 before separator after = true := by
    rcases separates with rfl | rfl <;> rfl
  rw [splitValue_append_of_returns returns tracked agrees, splitValue, if_pos (ends _),
    List.append_nil]

theorem closers_next? (known : ∀ closer ∈ level.closers, isCloser closer = true)
    (step : level.next? previous c = some next) : ∀ closer ∈ next.closers, isCloser closer = true := by
  cases inside : level.closers with
  | nil =>
    rcases next?_outside inside step with ⟨opened, opens, rfl⟩ | ⟨_, rfl⟩ | ⟨_, _, none, _⟩ |
      ⟨_, _, _, _, rfl⟩
    · simpa using isCloser_of_closing? opens
    · exact nofun
    · rw [none]
      exact nofun
    · exact known
  | cons closer closers =>
    rw [inside] at known
    obtain ⟨_, ⟨opened, opens, same⟩ | ⟨_, _, same⟩ | ⟨_, _, same⟩⟩ := next?_inside inside step
    · rw [same]
      exact List.forall_mem_cons.mpr ⟨isCloser_of_closing? opens, known⟩
    · rw [same]
      exact fun _ member => known _ (List.mem_cons_of_mem _ member)
    · rwa [same]

/-- What leads to the outermost level separates nothing. -/
theorem separates_of_next? (known : ∀ closer ∈ level.closers, isCloser closer = true)
    (step : level.next? previous c = some outer) : separates c = false := by
  cases ends : separates c with
  | false => rfl
  | true =>
    have plain : closing? c = none ∧ isCloser c = false ∧ c ≠ '<' ∧ c ≠ '>' := by
      simp only [separates, Bool.or_eq_true, beq_iff_eq] at ends
      rcases ends with (rfl | rfl) | rfl <;> decide
    cases inside : level.closers with
    | nil =>
      rcases next?_outside inside step with ⟨opened, opens, _⟩ | ⟨opens, _⟩ | ⟨closes, _⟩ |
        ⟨_, _, _, inert, rfl⟩
      · exact absurd (plain.1.symm.trans opens) nofun
      · exact absurd opens plain.2.2.1
      · exact absurd closes plain.2.2.2
      · exact absurd ends (by simp [inert rfl])
    | cons closer closers =>
      obtain ⟨_, ⟨opened, opens, _⟩ | ⟨_, rfl, _⟩ | ⟨_, _, same⟩⟩ := next?_inside inside step
      · exact absurd (plain.1.symm.trans opens) nofun
      · have closes := known c (inside ▸ List.mem_cons_self)
        exact absurd (plain.2.1.symm.trans closes) Bool.false_ne_true
      · contradiction

/-- The last character of a value separates nothing. -/
theorem separates_of_getLast? {found : List Piece}
    (known : ∀ closer ∈ level.closers, isCloser closer = true)
    (returns : level.returns previous found = true)
    (last : found.getLast? = some (.code c)) : separates c = false := by
  fun_induction Nesting.returns level previous found with
  | case1 => contradiction
  | case2 level previous d rest next step ih =>
    cases rest with
    | cons piece rest =>
      exact ih (closers_next? known step) returns (by rwa [List.getLast?_cons_cons] at last)
    | nil =>
      obtain rfl : d = c := by simpa using last
      obtain rfl : next = outer := of_decide_eq_true returns
      exact separates_of_next? known step
  | case3 => contradiction
  | case4 level previous piece rest other ih =>
    cases rest with
    | cons second rest => exact ih known returns (by rwa [List.getLast?_cons_cons] at last)
    | nil => exact absurd (by simpa using last) (other c)

end Nesting

end TypedClient
