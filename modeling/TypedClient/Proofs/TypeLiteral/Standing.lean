import TypedClient.Proofs.TypeLiteral.Comments

/-!
Where a reader stands in a body. What it knows of the brackets in front can be told from the pieces
alone, whatever entries it made of them. Main statements: every entry that ends leaves the reader
outside all brackets, and the place is the same with and without comments.
-/

namespace TypedClient

open Text

/-- A pair stays open up to the bracket that `splitClose` finds for it. -/
theorem OpenPair.next_of_inside {opening closing c : Char} {depth : Nat}
    (inside : ¬ (c = closing ∧ c ≠ opening ∧ depth = 0)) :
    OpenPair.next ⟨opening, closing, depth⟩ c = some ⟨opening, closing,
      if c = opening then depth + 1 else if c = closing then depth - 1 else depth⟩ := by
  unfold OpenPair.next
  split
  · rfl
  · rename_i other
    split
    · rename_i closes
      cases depth with
      | zero => exact absurd ⟨closes, other, rfl⟩ inside
      | succ depth => rfl
    · rfl

/-- Where a reader stands: in which bracket pair, in how many angle brackets outside of pairs, and
whether right behind an equals sign. -/
structure Standing where
  pair : Option OpenPair
  angles : Nat
  equals : Bool
  deriving DecidableEq, Repr

namespace Standing

def outer : Standing := ⟨none, 0, false⟩

/-- The place behind one more piece. -/
def next (place : Standing) : Piece → Standing
  | .code c =>
    match place.pair with
    | some around => ⟨around.next c, place.angles, c == '='⟩
    | none =>
      -- Of the text in front only the last character counts, and only if it makes an arrow.
      ⟨OpenPair.start? c, nextAngles place.angles (if place.equals then ['='] else []) c, c == '='⟩
  | _ => { place with equals := false }

def behind (place : Standing) (found : List Piece) : Standing := found.foldl next place

/-- Whether no bracket is open. An equals sign does not matter. -/
def Outside (place : Standing) : Prop := place.pair = none ∧ place.angles = 0

variable {place : Standing} {piece : Piece} {before : Text} {found rest after : List Piece}

@[simp] theorem behind_nil (place : Standing) : place.behind [] = place := rfl

@[simp] theorem behind_cons (place : Standing) (piece : Piece) (rest : List Piece) :
    place.behind (piece :: rest) = (place.next piece).behind rest := rfl

@[simp] theorem behind_append (place : Standing) (front back : List Piece) :
    place.behind (front ++ back) = (place.behind front).behind back :=
  List.foldl_append

theorem next_of_outside (outside : place.Outside) {c : Char}
    (ends : c = ';' ∨ c = ',' ∨ c = '\n') : place.next (.code c) = outer := by
  obtain ⟨pair, angles, equals⟩ := place
  obtain ⟨rfl, rfl⟩ := outside
  rcases ends with rfl | rfl | rfl <;> rfl

theorem next_outer_code {c : Char} (noPair : closing? c = none) (noAngle : c ≠ '<')
    (noEquals : c ≠ '=') : outer.next (.code c) = outer := by
  have start : OpenPair.start? c = none := by
    rw [OpenPair.start?, noPair]
    rfl
  have angles : nextAngles 0 [] c = 0 := by simp [nextAngles, noAngle]
  simp [next, outer, start, angles, noEquals]

/-- Whether a place tells of a closing angle bracket that comes next what the text read so far
tells. -/
def Knows (place : Standing) (before : Text) (found : List Piece) : Prop :=
  found.head? = some (.code '>') → (before.head? = some '=' ↔ place.equals = true)

theorem Knows.nextAngles {c : Char} (knows : place.Knows before (.code c :: rest)) :
    nextAngles place.angles before c =
      TypedClient.nextAngles place.angles (if place.equals then ['='] else []) c := by
  unfold TypedClient.nextAngles
  by_cases closes : c = '>'
  · subst closes
    have same := knows rfl
    cases equals : place.equals with
    | true => simp [same.mpr equals]
    | false =>
      have other : before.head? ≠ some '=' := fun head => by simp [same.mp head] at equals
      simp [other]
  · simp [closes]

/-- The last character of a quoted span or of a comment makes no arrow. -/
theorem Knows.next (aligned : Aligned (piece :: rest)) (place : Standing) (before : Text) :
    (place.next piece).Knows (piece.text.reverse ++ before) rest := by
  intro closes
  cases piece with
  | code c =>
    have equals : (place.next (.code c)).equals = (c == '=') := by
      unfold Standing.next
      cases place.pair <;> rfl
    rw [equals]
    simp [Piece.text]
  | quoted span =>
    obtain ⟨rest, rfl⟩ := List.head?_eq_some_iff.mp closes
    have whole : Aligned ([] ++ .quoted span :: .code '>' :: rest) := aligned
    have closed := whole.isClosedSpan_of_follows (by simp [Piece.text])
    cases span with
    | nil => contradiction
    | cons quote tail =>
      rw [Piece.isClosedSpan, Bool.and_eq_true] at closed
      have last : (quote :: tail).reverse.head? = some quote := by
        rw [List.head?_reverse, List.getLast?_cons, Piece.getLast?_of_endsQuoted closed.2]
        rfl
      refine iff_of_false ?_ Bool.false_ne_true
      rw [Piece.text, head?_append_of_ne_nil (by simp), last]
      rintro ⟨⟩
      exact absurd closed.1 (by decide)
  | comment span =>
    exact iff_of_false (not_arrow_of_comment before aligned closes).1 Bool.false_ne_true

theorem Knows.start (found : List Piece) : outer.Knows [] found := fun _ =>
  iff_of_false nofun Bool.false_ne_true

section Values

/-- Whether a value ends in front of a piece. -/
def stops (place : Standing) (before : Text) : Piece → List Piece → Bool
  | .code c, after => place.pair.isNone && endsValue place.angles before c after
  | _, _ => false

theorem exists_of_stops (stops : place.stops before piece after = true) :
    place.Outside ∧ ∃ c, piece = .code c ∧ (c = ';' ∨ c = ',' ∨ c = '\n') := by
  cases piece with
  | code c =>
    rw [Standing.stops, Bool.and_eq_true, Option.isNone_iff_eq_none] at stops
    obtain ⟨angles, ends⟩ := ends_of_endsValue stops.2
    exact ⟨⟨stops.1, angles⟩, c, rfl, ends⟩
  | quoted span => contradiction
  | comment span => contradiction

theorem splitValue_of_stops (stops : place.stops before piece rest = true) :
    splitValue place.angles place.pair before (piece :: rest) = ([], piece :: rest) := by
  obtain ⟨⟨pair, angles⟩, c, rfl, _⟩ := exists_of_stops stops
  rw [Standing.stops, Bool.and_eq_true] at stops
  rw [pair, splitValue_outside, if_pos stops.2]

/-- A reader of values goes on to the next place. -/
theorem splitValue_of_goesOn (knows : place.Knows before (piece :: rest))
    (goesOn : ¬ place.stops before piece rest = true) :
    splitValue place.angles place.pair before (piece :: rest) =
      (piece :: (splitValue (place.next piece).angles (place.next piece).pair
          (piece.text.reverse ++ before) rest).1,
        (splitValue (place.next piece).angles (place.next piece).pair
          (piece.text.reverse ++ before) rest).2) := by
  cases piece with
  | code c =>
    obtain ⟨pair, angles, equals⟩ := place
    cases pair with
    | some around => rfl
    | none =>
      have still : ¬ endsValue angles before c rest = true := goesOn
      rw [splitValue_outside, if_neg still, knows.nextAngles]
      rfl
  | quoted span => exact splitValue_span _ _ _ span (.inl rfl) rest
  | comment span => exact splitValue_span _ _ _ span (.inr rfl) rest

/-- A value that ends leaves its reader outside, in front of the piece that ends it and behind. -/
theorem outside_of_splitValue (aligned : Aligned found) (knows : place.Knows before found)
    (left : (splitValue place.angles place.pair before found).2 = piece :: rest) :
    (place.behind (splitValue place.angles place.pair before found).1).Outside ∧
      (place.behind (splitValue place.angles place.pair before found).1).next piece = outer := by
  induction found generalizing place before with
  | nil => contradiction
  | cons first more ih =>
    by_cases stops : place.stops before first more = true
    · rw [splitValue_of_stops stops] at left ⊢
      cases left
      obtain ⟨outside, c, rfl, ends⟩ := exists_of_stops stops
      exact ⟨outside, next_of_outside outside ends⟩
    · rw [splitValue_of_goesOn knows stops] at left ⊢
      exact ih aligned.2 (Knows.next aligned place before) left

end Values

section Entries

/-- Reading on to `rest` leads back outside of all brackets. -/
def Leads (found rest : List Piece) : Prop :=
  ∃ read, found = read ++ rest ∧ outer.behind read = outer

namespace Leads

theorem refl (found : List Piece) : Leads found found := ⟨[], rfl, rfl⟩

theorem trans (first : Leads found rest) (second : Leads rest after) : Leads found after := by
  obtain ⟨front, rfl, back⟩ := first
  obtain ⟨more, rfl, again⟩ := second
  exact ⟨front ++ more, (List.append_assoc ..).symm, by rw [behind_append, back, again]⟩

theorem cons (plain : outer.next piece = outer) (later : Leads rest after) :
    Leads (piece :: rest) after := by
  obtain ⟨read, rfl, back⟩ := later
  exact ⟨piece :: read, rfl, by rw [behind_cons, plain, back]⟩

theorem aligned (leads : Leads found rest) (aligned : Aligned found) : Aligned rest := by
  obtain ⟨read, rfl, _⟩ := leads
  exact aligned.of_append_right

/-- Pieces that are passed over one by one. -/
theorem dropWhile {p : Piece → Bool} (plain : ∀ piece, p piece = true → outer.next piece = outer)
    (found : List Piece) : Leads found (found.dropWhile p) := by
  induction found with
  | nil => exact refl []
  | cons piece rest ih =>
    rw [List.dropWhile_cons]
    split
    · rename_i taken
      exact cons (plain piece taken) ih
    · exact refl _

end Leads

theorem next_outer_of_isKeyChar {c : Char} (key : isKeyChar c = true) :
    outer.next (.code c) = outer := by
  have plain := isMark_of_isKeyChar key
  simp only [isMark, Bool.or_eq_false_iff, Option.isSome_eq_false_iff, Option.isNone_iff_eq_none]
    at plain
  refine next_outer_code plain.1.1 ?_ ?_
  · rintro rfl
    exact absurd key (by decide)
  · rintro rfl
    exact absurd key (by decide)

theorem next_outer_of_isSeparator (separator : piece.isSeparator = true) :
    outer.next piece = outer := by
  cases piece with
  | code c =>
    simp only [Piece.isSeparator, Bool.or_eq_true, beq_iff_eq] at separator
    rcases separator with (blank | rfl) | rfl
    · have plain := isMark_of_isBlank (isBlank_of_isAsciiBlank blank)
      simp only [isMark, Bool.or_eq_false_iff, Option.isSome_eq_false_iff,
        Option.isNone_iff_eq_none] at plain
      refine next_outer_code plain.1.1 ?_ ?_
      · rintro rfl
        exact absurd blank (by decide)
      · rintro rfl
        exact absurd blank (by decide)
    · rfl
    · rfl
  | quoted span => contradiction
  | comment span => rfl

theorem leads_skipTrivia (found : List Piece) : Leads found (skipTrivia found) :=
  .dropWhile (fun piece trivia =>
    next_outer_of_isSeparator (Piece.isSeparator_of_isTrivia piece trivia)) found

theorem leads_dropSeparators (found : List Piece) :
    Leads found (found.dropWhile Piece.isSeparator) :=
  .dropWhile (fun _ => next_outer_of_isSeparator) found

/-- A bracket pair leads back to where it was opened. -/
theorem behind_splitClose {opening closing : Char} {depth angles : Nat} {equals : Bool}
    {inner : List Piece} (split : splitClose opening closing depth found = some (inner, after)) :
    (Standing.mk (some ⟨opening, closing, depth⟩) angles equals).behind (inner ++ [.code closing]) =
      ⟨none, angles, closing == '='⟩ := by
  induction found generalizing depth equals inner with
  | nil => contradiction
  | cons piece rest ih =>
    cases piece with
    | code c =>
      rw [splitClose_code] at split
      by_cases ends : c = closing ∧ c ≠ opening ∧ depth = 0
      · rw [if_pos ends] at split
        cases split
        obtain ⟨rfl, other, rfl⟩ := ends
        have closed : OpenPair.next ⟨opening, c, 0⟩ c = none := by
          rw [OpenPair.next, if_neg other, if_pos rfl]
        rw [List.nil_append, behind_cons, Standing.next]
        dsimp only
        rw [closed]
        rfl
      · rw [if_neg ends] at split
        obtain ⟨⟨more, _⟩, later, same⟩ := Option.map_eq_some_iff.mp split
        cases same
        rw [List.cons_append, behind_cons, Standing.next]
        dsimp only
        rw [OpenPair.next_of_inside ends]
        exact ih later
    | quoted span =>
      rw [splitClose_quoted] at split
      obtain ⟨⟨more, _⟩, later, same⟩ := Option.map_eq_some_iff.mp split
      cases same
      rw [List.cons_append, behind_cons]
      exact ih later
    | comment span =>
      rw [splitClose_comment] at split
      obtain ⟨⟨more, _⟩, later, same⟩ := Option.map_eq_some_iff.mp split
      cases same
      rw [List.cons_append, behind_cons]
      exact ih later

variable {name : Text}

theorem leads_of_readKey? (read : readKey? found = some (name, after)) : Leads found after := by
  unfold readKey? at read
  split at read
  · split at read
    · contradiction
    · obtain ⟨_, _, same⟩ := Option.map_eq_some_iff.mp read
      cases same
      exact .cons rfl (.refl _)
  · split at read
    · rename_i bracket
      split at read
      · rename_i inner _ split
        cases read
        refine ⟨.code '[' :: inner ++ [.code ']'], ?_, ?_⟩
        · rw [bracket, splitClose_append split]
          simp
        · rw [List.cons_append, behind_cons]
          exact behind_splitClose split
      · contradiction
    · split at read
      · rename_i key
        cases read
        refine .cons (next_outer_of_isKeyChar key) (.dropWhile (fun piece taken => ?_) _)
        cases piece with
        | code c => exact next_outer_of_isKeyChar taken
        | quoted span => rfl
        | comment span => rfl
      · contradiction
  · contradiction

theorem leads_of_readModifiedKey? (read : readModifiedKey? found = some (name, after)) :
    Leads found after := by
  unfold readModifiedKey? at read
  split at read
  · contradiction
  · rename_i name' after' first
    have start := leads_of_readKey? first
    split at read
    · cases second : readKey? (skipTrivia after') with
      | none =>
        rw [second] at read
        cases read
        exact start
      | some pair =>
        rw [second] at read
        cases read
        exact (start.trans (leads_skipTrivia after')).trans (leads_of_readKey? second)
    · cases read
      exact start

theorem leads_readMark (found : List Piece) : Leads found (readMark found).2 := by
  have first := leads_skipTrivia found
  unfold readMark
  split
  · rename_i rest same
    rw [same] at first
    exact first.trans (.cons rfl (leads_skipTrivia rest))
  · exact first

end Entries

end Standing

/-- What an entry leaves, from the piece on that ends it. -/
def entryEnd (found : List Piece) : List Piece :=
  match readModifiedKey? found with
  | none => (readValue found).2
  | some (_, after) =>
    match readMark after with
    | (_, .code ':' :: rest) => (readValue rest).2
    | (_, other) => (readValue other).2

theorem readEntry_eq_drop (found : List Piece) :
    (readEntry found).2 = (entryEnd found).drop 1 := by
  unfold readEntry entryEnd
  cases readModifiedKey? found with
  | none => rfl
  | some pair =>
    dsimp only
    generalize readMark pair.2 = marked
    obtain ⟨optional, left⟩ := marked
    cases left with
    | nil => rfl
    | cons piece rest =>
      by_cases colon : piece = .code ':'
      · subst colon
        rfl
      · simp [colon]

namespace Standing

variable {place : Standing} {piece : Piece} {found rest : List Piece}

theorem leads_of_readValue (aligned : Aligned found) (left : (readValue found).2 = piece :: rest) :
    Leads found rest := by
  obtain ⟨_, behind⟩ := outside_of_splitValue aligned (Knows.start found) left
  refine ⟨(readValue found).1 ++ [piece], ?_, ?_⟩
  · have whole := splitValue_append 0 none [] found
    rw [List.append_assoc, List.singleton_append, ← left, readValue, whole]
  · rw [behind_append]
    exact behind

/-- An entry is read as a stretch that leads back outside and a value behind it. -/
theorem exists_value (found : List Piece) :
    ∃ value, Leads found value ∧ entryEnd found = (readValue value).2 := by
  unfold entryEnd
  split
  · exact ⟨found, .refl found, rfl⟩
  · rename_i name after read
    have start := (leads_of_readModifiedKey? read).trans (leads_readMark after)
    split
    · rename_i rest same
      rw [same] at start
      exact ⟨rest, start.trans (.cons rfl (.refl rest)), rfl⟩
    · rename_i other _ same
      rw [same] at start
      exact ⟨other, start, rfl⟩

/-- An entry that ends leaves its reader outside, in front of the piece that ends it and behind. -/
theorem outside_of_entryEnd (aligned : Aligned found) (left : entryEnd found = piece :: rest) :
    ∃ read, found = read ++ piece :: rest ∧ (outer.behind read).Outside ∧
      (outer.behind read).next piece = outer := by
  obtain ⟨value, ⟨front, rfl, back⟩, same⟩ := exists_value found
  rw [same] at left
  obtain ⟨outside, behind⟩ :=
    outside_of_splitValue aligned.of_append_right (Knows.start value) left
  have whole := splitValue_append 0 none [] value
  refine ⟨front ++ (readValue value).1, ?_, ?_, ?_⟩
  · rw [List.append_assoc, ← left, readValue, whole]
  · rw [behind_append, back]
    exact outside
  · rw [behind_append, back]
    exact behind

theorem leads_of_entryEnd (aligned : Aligned found) (left : entryEnd found = piece :: rest) :
    Leads found rest := by
  obtain ⟨read, rfl, _, behind⟩ := outside_of_entryEnd aligned left
  exact ⟨read ++ [piece], by simp, by rw [behind_append]; exact behind⟩

section Comments

variable {bare : Standing}

/-- Places that are the same, but for an equals sign that no closing angle bracket comes behind. -/
structure Alike (place bare : Standing) (found : List Piece) : Prop where
  pair : bare.pair = place.pair
  angles : bare.angles = place.angles
  equals : found.head? = some (.code '>') → bare.equals = place.equals

/-- A pair is closed by the bracket that belongs to it. -/
def Paired (place : Standing) : Prop :=
  ∀ around ∈ place.pair, closing? around.opening = some around.closing

theorem Paired.next (paired : place.Paired) (piece : Piece) : (place.next piece).Paired := by
  obtain ⟨pair, angles, equals⟩ := place
  cases piece with
  | code c =>
    cases pair with
    | some around => exact fun inner next => closing?_next (paired around rfl) next
    | none => exact fun inner start => closing?_start start
  | quoted span => exact paired
  | comment span => exact paired

/-- A space that a comment leaves behind opens and closes nothing. -/
theorem next_space (paired : place.Paired) :
    place.next (.code ' ') = { place with equals := false } := by
  obtain ⟨pair, angles, equals⟩ := place
  cases pair with
  | some around =>
    have same := TypedClient.next_space (paired around rfl)
    change Standing.mk (around.next ' ') angles false = _
    rw [same]
  | none => rfl

theorem Alike.next {c : Char} (alike : place.Alike bare (.code c :: rest)) (later : List Piece) :
    (place.next (.code c)).Alike (bare.next (.code c)) later := by
  obtain ⟨pair, angles, equals⟩ := place
  obtain ⟨bare, _, bareEquals⟩ := bare
  obtain ⟨rfl, rfl, same⟩ := alike
  cases bare with
  | some around => exact ⟨rfl, rfl, fun _ => rfl⟩
  | none =>
    refine ⟨rfl, ?_, fun _ => rfl⟩
    by_cases closes : c = '>'
    · subst closes
      rw [show bareEquals = equals from same rfl]
    · simp [Standing.next, nextAngles, closes]

/-- Taking the comments out does not move a reader to another place. -/
theorem Alike.behind (alike : place.Alike bare (found ++ rest)) (aligned : Aligned (found ++ rest))
    (paired : place.Paired) :
    (place.behind found).Alike (bare.behind (withoutComments found)) rest := by
  induction found generalizing place bare with
  | nil => exact alike
  | cons piece found ih =>
    cases piece with
    | code c => exact ih (alike.next _) aligned.2 (paired.next _)
    | quoted span => exact ih ⟨alike.pair, alike.angles, fun _ => rfl⟩ aligned.2 (paired.next _)
    | comment span =>
      have barePaired : bare.Paired := fun around => alike.pair ▸ paired around
      rw [withoutComments_cons, behind_append, behind_cons]
      refine ih ?_ aligned.2 (paired.next _)
      rcases uncommented_comment span with left | left
      · rw [left, behind_cons, behind_nil, next_space barePaired]
        exact ⟨alike.pair, alike.angles, fun _ => rfl⟩
      · rw [left, behind_nil]
        refine ⟨alike.pair, alike.angles, fun closes => ?_⟩
        -- A line comment leaves nothing behind, but a line feed comes next.
        rw [(not_arrow_of_comment [] aligned closes).2] at left
        contradiction

/-- Outside of all brackets is outside with and without comments. -/
theorem outside_withoutComments (aligned : Aligned found) :
    (outer.behind (withoutComments found)).Outside ↔ (outer.behind found).Outside := by
  have whole : Aligned (found ++ []) := by rwa [List.append_nil]
  have start : outer.Alike outer (found ++ []) := ⟨rfl, rfl, fun _ => rfl⟩
  have alike := start.behind whole nofun
  unfold Outside
  rw [alike.pair, alike.angles]

end Comments

end Standing

end TypedClient
