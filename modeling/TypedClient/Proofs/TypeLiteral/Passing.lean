import TypedClient.Proofs.TypeLiteral.Standing
import TypedClient.Proofs.TypeText.OneLine

/-!
Values that a reader passes over as a whole. Main statements: the brackets of every value in a body
nest if those of the body do, no separator in it stands outside of them, and both is still so once
the value is put on one line.
-/

namespace TypedClient

open Text Nesting

section Brackets

variable {c : Char} {closers behind : List Char}
  {found after front back flat : List Piece} {gap : Piece → Bool}

/-- The brackets still to come behind one more character of code, innermost first. A bracket may only
close the innermost pair. -/
def nextClosers? (closers : List Char) (c : Char) : Option (List Char) :=
  match closing? c with
  | some closer => some (closer :: closers)
  | none =>
    if isCloser c then
      match closers with
      | closer :: closers => if c = closer then some closers else none
      | [] => none
    else some closers

def closersBehind? (closers : List Char) : List Piece → Option (List Char)
  | [] => some closers
  | .code c :: rest => (nextClosers? closers c).bind fun closers => closersBehind? closers rest
  | _ :: rest => closersBehind? closers rest

/-- Whether the brackets in the code of a text nest. -/
def BracketsNest (text : Text) : Prop := closersBehind? [] (pieces text) = some []

instance (text : Text) : Decidable (BracketsNest text) :=
  inferInstanceAs (Decidable (closersBehind? [] (pieces text) = some []))

theorem closersBehind?_append (closers : List Char) (front back : List Piece) :
    closersBehind? closers (front ++ back) =
      (closersBehind? closers front).bind fun closers => closersBehind? closers back := by
  induction front generalizing closers with
  | nil => rfl
  | cons piece front ih =>
    cases piece with
    | code c =>
      rw [List.cons_append, closersBehind?, closersBehind?, Option.bind_assoc]
      exact congrArg _ (funext fun closers => ih closers)
    | quoted span => exact ih closers
    | comment span => exact ih closers

theorem nextClosers?_of_plain (opens : closing? c = none) (closes : isCloser c = false) :
    nextClosers? closers c = some closers := by
  unfold nextClosers?
  rw [opens]
  exact if_neg (by simp [closes])

/-- A character closes the innermost pair, opens another one or is no bracket. -/
theorem nextClosers?_cases (next : nextClosers? closers c = some behind) :
    (∃ closer, closing? c = some closer ∧ behind = closer :: closers) ∨
      (closing? c = none ∧ isCloser c = true ∧ closers = c :: behind) ∨
      (closing? c = none ∧ isCloser c = false ∧ behind = closers) := by
  unfold nextClosers? at next
  cases opens : closing? c with
  | some closer =>
    rw [opens] at next
    exact .inl ⟨closer, rfl, (Option.some.inj next).symm⟩
  | none =>
    simp only [opens] at next
    cases closes : isCloser c with
    | false =>
      rw [closes, if_neg Bool.false_ne_true] at next
      exact .inr (.inr ⟨rfl, rfl, (Option.some.inj next).symm⟩)
    | true =>
      rw [closes, if_pos rfl] at next
      cases closers with
      | nil => contradiction
      | cons closer closers =>
        dsimp only at next
        split at next
        · rename_i same
          cases next
          exact .inr (.inl ⟨rfl, rfl, by rw [same]⟩)
        · contradiction

theorem tracked_nextClosers? {around : OpenPair} (tracked : Tracked closers (some around))
    (next : nextClosers? closers c = some behind) : Tracked behind (around.next c) := by
  rcases nextClosers?_cases next with ⟨closer, opens, rfl⟩ | ⟨plain, _, rfl⟩ |
    ⟨plain, notCloser, rfl⟩
  · exact tracked_open tracked opens
  · exact tracked_close tracked plain
  · exact tracked_other tracked plain notCloser

theorem tracked_startClosers? (next : nextClosers? [] c = some behind) :
    Tracked behind (OpenPair.start? c) := by
  unfold OpenPair.start?
  rcases nextClosers?_cases next with ⟨closer, opens, rfl⟩ | ⟨_, _, none⟩ | ⟨plain, _, rfl⟩
  · rw [opens]
    exact ⟨opens, [], rfl, rfl⟩
  · contradiction
  · rw [plain]
    rfl

/-- A reader knows the outermost of the pairs that are open. -/
theorem tracked_behind {place : Standing} (tracked : Tracked closers place.pair)
    (read : closersBehind? closers found = some behind) :
    Tracked behind (place.behind found).pair := by
  induction found generalizing closers place with
  | nil =>
    cases read
    exact tracked
  | cons piece rest ih =>
    cases piece with
    | quoted span => exact ih tracked read
    | comment span => exact ih tracked read
    | code c =>
      obtain ⟨next, step, later⟩ := Option.bind_eq_some_iff.mp read
      refine ih ?_ later
      obtain ⟨pair, angles, equals⟩ := place
      cases pair with
      | some outer => exact tracked_nextClosers? tracked step
      | none =>
        obtain rfl : closers = [] := tracked
        exact tracked_startClosers? step

/-- Outside all brackets none is to come. -/
theorem closersBehind?_of_outside (whole : closersBehind? [] (front ++ back) = some [])
    (outside : (Standing.outer.behind front).pair = none) :
    closersBehind? [] front = some [] ∧ closersBehind? [] back = some [] := by
  rw [closersBehind?_append] at whole
  obtain ⟨closers, first, second⟩ := Option.bind_eq_some_iff.mp whole
  have start : Tracked [] Standing.outer.pair := rfl
  have tracked := tracked_behind start first
  rw [outside] at tracked
  obtain rfl : closers = [] := tracked
  exact ⟨first, second⟩

/-- Behind brackets that nest, the brace is found that closes the pair around them. -/
theorem splitClose_of_nests (nests : closersBehind? closers found = some []) (after : List Piece) :
    splitClose '{' '}' (closers.count '}') (found ++ .code '}' :: after) = some (found, after) := by
  induction found generalizing closers with
  | nil =>
    obtain rfl : closers = [] := Option.some.inj nests
    rfl
  | cons piece rest ih =>
    cases piece with
    | quoted span => rw [List.cons_append, splitClose_quoted, ih nests]; rfl
    | comment span => rw [List.cons_append, splitClose_comment, ih nests]; rfl
    | code c =>
      obtain ⟨next, step, later⟩ := Option.bind_eq_some_iff.mp nests
      rw [List.cons_append, splitClose_code]
      rcases nextClosers?_cases step with ⟨closer, opens, rfl⟩ | ⟨plain, closes, rfl⟩ |
        ⟨plain, other, rfl⟩
      · have notCloser : c ≠ '}' := by
          rintro rfl
          contradiction
        rw [if_neg fun ends => notCloser ends.1, if_neg notCloser]
        by_cases brace : c = '{'
        · subst brace
          cases opens
          rw [if_pos rfl, ← List.count_cons_self, ih later]
          rfl
        · have different : closer ≠ '}' := by
            rintro rfl
            exact brace (eq_of_closing? opens rfl)
          rw [if_neg brace, ← List.count_cons_of_ne different, ih later]
          rfl
      · have notOpening : c ≠ '{' := by
          rintro rfl
          contradiction
        rw [if_neg notOpening]
        by_cases brace : c = '}'
        · subst brace
          rw [if_neg (by simp), if_pos rfl, List.count_cons_self, Nat.add_sub_cancel, ih later]
          rfl
        · rw [if_neg fun ends => brace ends.1, if_neg brace, List.count_cons_of_ne brace, ih later]
          rfl
      · have notOpening : c ≠ '{' := by
          rintro rfl
          contradiction
        have notClosing : c ≠ '}' := by
          rintro rfl
          contradiction
        rw [if_neg fun ends => notClosing ends.1, if_neg notOpening, if_neg notClosing, ih later]
        rfl

/-- A kind of characters that no closing bracket is one of. -/
theorem isCloser_of_apart {kind : Char → Bool}
    (apart : kind '}' = false ∧ kind ']' = false ∧ kind ')' = false) (own : kind c = true) :
    isCloser c = false := by
  cases closes : isCloser c with
  | false => rfl
  | true =>
    simp only [isCloser, Bool.or_eq_true, beq_iff_eq] at closes
    rcases closes with (rfl | rfl) | rfl
    · exact absurd own (Bool.eq_false_iff.mp apart.1)
    · exact absurd own (Bool.eq_false_iff.mp apart.2.1)
    · exact absurd own (Bool.eq_false_iff.mp apart.2.2)

/-- A character that is neither a mark nor closes a bracket leaves the brackets as they are. -/
theorem nextClosers?_of_unmarked (plain : isMark c = false) (other : isCloser c = false) :
    nextClosers? closers c = some closers := by
  simp only [isMark, Bool.or_eq_false_iff, Option.isSome_eq_false_iff, Option.isNone_iff_eq_none]
    at plain
  exact nextClosers?_of_plain plain.1.1 other

theorem nextClosers?_of_isBlank (blank : isBlank c = true) :
    nextClosers? closers c = some closers :=
  nextClosers?_of_unmarked (isMark_of_isBlank blank) (isCloser_of_apart ⟨rfl, rfl, rfl⟩ blank)

theorem closersBehind?_spacing {piece : Piece} (spacing : piece.isSpacing = true) :
    closersBehind? closers (piece :: found) = closersBehind? closers found := by
  cases piece with
  | quoted span => contradiction
  | comment span => rfl
  | code c => rw [closersBehind?, nextClosers?_of_isBlank spacing]; rfl

theorem closersBehind?_of_spacing (spacing : found.all Piece.isSpacing = true) :
    closersBehind? closers found = some closers := by
  induction found with
  | nil => rfl
  | cons piece rest ih =>
    rw [List.all_cons, Bool.and_eq_true] at spacing
    rw [closersBehind?_spacing spacing.1, ih spacing.2]

/-- The brackets are the same on one line. -/
theorem closersBehind?_flattened (flattened : Flattened gap found flat)
    (gaps : ∀ piece, gap piece = true → piece.isSpacing = true) (closers : List Char) :
    closersBehind? closers flat = closersBehind? closers found := by
  induction flattened generalizing closers with
  | nil => rfl
  | @code c _ _ _ _ ih => exact congrArg (nextClosers? closers c).bind (funext ih)
  | quoted _ _ ih => exact ih closers
  | space spacing _ _ _ ih =>
    rw [closersBehind?_spacing (gaps _ spacing), closersBehind?_spacing rfl, ih]
  | drop spacing _ _ ih => rw [closersBehind?_spacing (gaps _ spacing), ih]

end Brackets

namespace Standing

variable {place bare : Standing} {piece : Piece} {before : Text}
  {found after front back flat : List Piece} {gap : Piece → Bool}

/-- Whether none of these pieces is a semicolon or a comma outside all brackets. -/
def Passes (place : Standing) : List Piece → Prop
  | [] => True
  | piece :: rest =>
    (place.Outside → piece ≠ .code ';' ∧ piece ≠ .code ',') ∧ (place.next piece).Passes rest

theorem passes_append (place : Standing) (front back : List Piece) :
    place.Passes (front ++ back) ↔ place.Passes front ∧ (place.behind front).Passes back := by
  induction front generalizing place with
  | nil => exact (and_iff_right trivial).symm
  | cons piece front ih => exact (and_congr_right fun _ => ih _).trans and_assoc.symm

theorem stops_of_separator (outside : place.Outside) {c : Char} (ends : c = ';' ∨ c = ',')
    (before : Text) (after : List Piece) : place.stops before (.code c) after = true := by
  rw [stops, outside.1, outside.2]
  rcases ends with rfl | rfl <;> rfl

/-- What was read of a value, its reader passed over. -/
theorem passes_of_splitValue (aligned : Aligned found) (knows : place.Knows before found) :
    place.Passes (splitValue place.angles place.pair before found).1 := by
  induction found generalizing place before with
  | nil => trivial
  | cons piece rest ih =>
    by_cases stops : place.stops before piece rest = true
    · rw [splitValue_of_stops stops]
      trivial
    · rw [splitValue_of_goesOn knows stops]
      refine ⟨fun outside => ⟨?_, ?_⟩, ih aligned.2 (Knows.next aligned place before)⟩
      · rintro rfl
        exact stops (stops_of_separator outside (.inl rfl) before rest)
      · rintro rfl
        exact stops (stops_of_separator outside (.inr rfl) before rest)

/-- Pieces on one line are read up to where a separator stands outside. -/
theorem splitValue_of_passes (aligned : Aligned (found ++ after))
    (knows : place.Knows before (found ++ after)) (line : found.all Piece.isOnLine = true)
    (passes : place.Passes found) :
    ∃ read, splitValue place.angles place.pair before (found ++ after) =
      (found ++ (splitValue (place.behind found).angles (place.behind found).pair read after).1,
        (splitValue (place.behind found).angles (place.behind found).pair read after).2) := by
  induction found generalizing place before with
  | nil => exact ⟨before, rfl⟩
  | cons piece rest ih =>
    rw [List.all_cons, Bool.and_eq_true] at line
    have goesOn : ¬ place.stops before piece (rest ++ after) = true := by
      intro stops
      obtain ⟨outside, c, rfl, ends⟩ := exists_of_stops stops
      obtain ⟨notMark, notComma⟩ := passes.1 outside
      rcases ends with rfl | rfl | rfl
      · exact notMark rfl
      · exact notComma rfl
      · exact absurd line.1 (by decide)
    obtain ⟨read, same⟩ := ih aligned.2 (Knows.next aligned place before) line.2 passes.2
    refine ⟨read, ?_⟩
    rw [List.cons_append] at knows ⊢
    rw [splitValue_of_goesOn knows goesOn, same]
    rfl

theorem next_spacing (paired : place.Paired) (spacing : piece.isSpacing = true) :
    place.next piece = { place with equals := false } := by
  cases piece with
  | quoted span => contradiction
  | comment span => rfl
  | code c =>
    have blank : isBlank c = true := spacing
    have plain := isMark_of_isBlank blank
    simp only [isMark, Bool.or_eq_false_iff, Option.isSome_eq_false_iff,
      Option.isNone_iff_eq_none] at plain
    have solid (d : Char) (other : isBlank d = false) : c ≠ d := by
      rintro rfl
      rw [other] at blank
      contradiction
    have equals : (c == '=') = false := beq_false_of_ne (solid '=' rfl)
    obtain ⟨pair, angles, _⟩ := place
    cases pair with
    | none =>
      have start : OpenPair.start? c = none := by
        rw [OpenPair.start?, plain.1.1]
        rfl
      rw [next, start, equals, nextAngles, if_neg (solid '<' rfl), if_neg (solid '>' rfl)]
    | some around =>
      have opened := paired around rfl
      have notOpening : c ≠ around.opening := by
        rintro rfl
        rw [plain.1.1] at opened
        contradiction
      have notClosing : c ≠ around.closing := by
        refine solid _ ?_
        have closer := isCloser_of_closing? opened
        simp only [isCloser, Bool.or_eq_true, beq_iff_eq] at closer
        rcases closer with (same | same) | same <;> rw [same] <;> rfl
      have stays : around.next c = some around := by
        rw [OpenPair.next, if_neg notOpening, if_neg notClosing]
      change Standing.mk (around.next c) angles (c == '=') = _
      rw [stays, equals]

/-- Spacing opens and closes nothing. -/
theorem behind_spacing (paired : place.Paired) (spacing : found.all Piece.isSpacing = true) :
    (place.behind found).pair = place.pair ∧ (place.behind found).angles = place.angles := by
  induction found generalizing place with
  | nil => exact ⟨rfl, rfl⟩
  | cons piece rest ih =>
    rw [List.all_cons, Bool.and_eq_true] at spacing
    have here := next_spacing paired spacing.1
    obtain ⟨pair, angles⟩ := ih (paired.next piece) spacing.2
    rw [here] at pair angles
    rw [behind_cons, here]
    exact ⟨pair, angles⟩

theorem paired_outer : outer.Paired := nofun

theorem behind_outer_of_spacing (spacing : found.all Piece.isSpacing = true) :
    outer.behind found = outer := by
  induction found with
  | nil => rfl
  | cons piece rest ih =>
    rw [List.all_cons, Bool.and_eq_true] at spacing
    have here : outer.next piece = outer := next_spacing paired_outer spacing.1
    rw [behind_cons, here, ih spacing.2]

theorem Paired.behind (paired : place.Paired) (found : List Piece) : (place.behind found).Paired := by
  induction found generalizing place with
  | nil => exact paired
  | cons piece rest ih => exact ih (paired.next piece)

theorem Paired.alike (paired : place.Paired) (alike : place.Alike bare found) : bare.Paired :=
  fun around => alike.pair ▸ paired around

theorem Alike.span (alike : place.Alike bare found) (one other : Text) (rest : List Piece) :
    (place.next (.quoted one)).Alike (bare.next (.quoted other)) rest :=
  ⟨alike.pair, alike.angles, fun _ => rfl⟩

/-- Spacing that leaves a space on one line. -/
theorem Alike.space (alike : place.Alike bare found) (paired : place.Paired)
    (spacing : piece.isSpacing = true) (rest : List Piece) :
    (place.next piece).Alike (bare.next (.code ' ')) rest := by
  rw [next_spacing paired spacing,
    Standing.next_spacing (paired.alike alike) (show Piece.isSpacing (.code ' ') = true from rfl)]
  exact ⟨alike.pair, alike.angles, fun _ => rfl⟩

/-- Spacing that the next space on one line stands for. -/
theorem Alike.drop (alike : place.Alike bare flat) (paired : place.Paired)
    (spacing : piece.isSpacing = true) (next : flat.head? = some (.code ' ')) :
    (place.next piece).Alike bare flat := by
  rw [next_spacing paired spacing]
  refine ⟨alike.pair, alike.angles, fun closes => ?_⟩
  rw [next] at closes
  contradiction

/-- A reader stands at the same place on one line, and passes over the same. -/
theorem behind_flattened (flattened : Flattened gap found flat)
    (gaps : ∀ piece, gap piece = true → piece.isSpacing = true) (paired : place.Paired)
    (alike : place.Alike bare flat) :
    (place.behind found).Alike (bare.behind flat) [] ∧
      (place.Passes found → bare.Passes flat) := by
  induction flattened generalizing place bare with
  | nil => exact ⟨⟨alike.pair, alike.angles, nofun⟩, fun _ => trivial⟩
  | code _ _ ih =>
    obtain ⟨same, passes⟩ := ih (paired.next _) (alike.next _)
    refine ⟨same, fun before => ⟨fun outside => before.1 ?_, passes before.2⟩⟩
    exact ⟨alike.pair ▸ outside.1, alike.angles ▸ outside.2⟩
  | quoted _ _ ih =>
    obtain ⟨same, passes⟩ := ih (paired.next _) (alike.span _ _ _)
    exact ⟨same, fun before => ⟨fun _ => ⟨nofun, nofun⟩, passes before.2⟩⟩
  | space spacing _ _ _ ih =>
    obtain ⟨same, passes⟩ := ih (paired.next _) (alike.space paired (gaps _ spacing) _)
    exact ⟨same, fun before => ⟨fun _ => ⟨by decide, by decide⟩, passes before.2⟩⟩
  | drop spacing next _ ih =>
    obtain ⟨same, passes⟩ := ih (paired.next _) (alike.drop paired (gaps _ spacing) next)
    exact ⟨same, fun before => passes before.2⟩

end Standing

section Values

variable {found rest : List Piece}

open Standing

/-- Pieces of a body, from a place outside all brackets on: their spans are closed and their brackets
nest. -/
structure Enclosed (found : List Piece) : Prop where
  aligned : Aligned found
  closed : ∀ span, .quoted span ∈ found → Piece.isClosedSpan span = true
  nests : closersBehind? [] found = some []

/-- The pieces of a value on one line, which a reader passes over as a whole. -/
structure LineValue (flat : List Piece) : Prop where
  aligned : Aligned flat
  line : flat.all Piece.isOnLine = true
  nests : closersBehind? [] flat = some []
  passes : outer.Passes flat

namespace Enclosed

theorem nil : Enclosed [] := ⟨trivial, nofun, rfl⟩

theorem of_leads (enclosed : Enclosed found) (leads : Leads found rest) : Enclosed rest := by
  obtain ⟨read, rfl, back⟩ := leads
  exact ⟨enclosed.aligned.of_append_right,
    fun span member => enclosed.closed span (List.mem_append_right _ member),
    (closersBehind?_of_outside enclosed.nests (by rw [back]; rfl)).2⟩

/-- A value is passed over, and its reader stands outside where something ends it. -/
theorem readValue (enclosed : Enclosed found) :
    Enclosed (readValue found).1 ∧ outer.Passes (readValue found).1 ∧
      ((readValue found).2 ≠ [] → (outer.behind (readValue found).1).Outside) := by
  have whole : (TypedClient.readValue found).1 ++ (TypedClient.readValue found).2 = found :=
    splitValue_append 0 none [] found
  have ends (left : (TypedClient.readValue found).2 ≠ []) :
      (outer.behind (TypedClient.readValue found).1).Outside := by
    obtain ⟨piece, rest, same⟩ := List.exists_cons_of_ne_nil left
    exact (outside_of_splitValue enclosed.aligned (Knows.start found) same).1
  have passes : outer.Passes (TypedClient.readValue found).1 :=
    passes_of_splitValue enclosed.aligned (Knows.start found)
  have nests : closersBehind? [] (TypedClient.readValue found).1 = some [] := by
    by_cases last : (TypedClient.readValue found).2 = []
    · rw [last, List.append_nil] at whole
      rw [whole]
      exact enclosed.nests
    · exact (closersBehind?_of_outside (whole.symm ▸ enclosed.nests) (ends last).1).1
  refine ⟨⟨Aligned.of_append_left (whole.symm ▸ enclosed.aligned), fun span member => ?_, nests⟩,
    passes, ends⟩
  exact enclosed.closed span (whole ▸ List.mem_append_left _ member)

/-- On one line a value is passed over as before. -/
theorem exists_line (enclosed : Enclosed found) (passes : outer.Passes found) :
    ∃ flat, LineValue flat ∧ textOf flat = collapseType (textOf found) ∧
      ((outer.behind found).Outside → (outer.behind flat).Outside) := by
  obtain ⟨lead, core, trail, flat, rfl, opening, ending, flattened, aligned, text⟩ :=
    exists_flattened_core enclosed.aligned enclosed.closed
  have gaps : ∀ piece : Piece, piece.isSpacing = true → piece.isSpacing = true := fun _ => id
  have inCore := ((passes_append _ _ _).mp ((passes_append _ _ _).mp passes).1).2
  rw [behind_outer_of_spacing opening] at inCore
  have alike : outer.Alike outer flat := ⟨rfl, rfl, fun _ => rfl⟩
  obtain ⟨same, passesFlat⟩ := behind_flattened flattened gaps paired_outer alike
  have nests : closersBehind? [] core = some [] := by
    have whole := enclosed.nests
    rw [List.append_assoc, closersBehind?_append, closersBehind?_of_spacing opening,
      Option.bind_some, closersBehind?_append] at whole
    obtain ⟨closers, first, second⟩ := Option.bind_eq_some_iff.mp whole
    rw [closersBehind?_of_spacing ending] at second
    rw [first, second]
  refine ⟨flat, ⟨aligned, flattened.onLine, ?_, passesFlat inCore⟩, text, fun outside => ?_⟩
  · rw [closersBehind?_flattened flattened gaps, nests]
  · have paired : (outer.behind core).Paired := paired_outer.behind core
    obtain ⟨pair, angles⟩ := behind_spacing paired ending
    rw [behind_append, behind_append, behind_outer_of_spacing opening] at outside
    exact ⟨same.pair.trans (pair.symm.trans outside.1),
      same.angles.trans (angles.symm.trans outside.2)⟩

/-- An entry is read with a value that is part of these pieces, and so is what it leaves. -/
theorem readEntry (enclosed : Enclosed found) :
    (∀ entry ∈ (readEntry found).1, Enclosed entry.following ∧
        entry.member.value = trim (textOf (TypedClient.readValue entry.following).1) ∧
        (TypedClient.readEntry found).2 = (TypedClient.readValue entry.following).2.drop 1) ∧
      Enclosed (TypedClient.readEntry found).2 := by
  constructor
  · unfold TypedClient.readEntry
    split
    · exact nofun
    · rename_i name after read
      have start := (leads_of_readModifiedKey? read).trans (leads_readMark after)
      split
      · rename_i rest same
        rw [same] at start
        rintro entry ⟨⟩
        exact ⟨enclosed.of_leads (start.trans (.cons rfl (.refl rest))), rfl, rfl⟩
      · exact nofun
  · rw [readEntry_eq_drop]
    cases left : entryEnd found with
    | nil => exact nil
    | cons piece rest => exact enclosed.of_leads (leads_of_entryEnd enclosed.aligned left)

end Enclosed

/-- Members whose values are passed over on one line, and all but the last up to a place outside of
all brackets. -/
def Lined : List Member → Prop
  | [] => True
  | member :: rest =>
    (∃ flat, LineValue flat ∧ textOf flat = collapseType member.value ∧
      (rest ≠ [] → (outer.behind flat).Outside)) ∧ Lined rest

theorem Enclosed.lined (enclosed : Enclosed found) : Lined ((entriesFrom found).map (·.member)) := by
  fun_induction entriesFrom found with
  | case1 => trivial
  | case2 found piece rest start ih =>
    have here : Enclosed (piece :: rest) := enclosed.of_leads (start ▸ leads_dropSeparators found)
    obtain ⟨value, later⟩ := here.readEntry
    have more := ih later
    cases read : (TypedClient.readEntry (piece :: rest)).1 with
    | none => exact more
    | some entry =>
      obtain ⟨following, text, left⟩ := value entry read
      obtain ⟨enclosedValue, passes, outside⟩ := following.readValue
      obtain ⟨flat, line, same, ends⟩ := enclosedValue.exists_line passes
      refine ⟨⟨flat, line, ?_, fun filled => ends (outside fun last => filled ?_)⟩, more⟩
      · rw [same, text, collapseType_trim]
      · rw [left, last, List.drop_nil, entriesFrom_of_empty rfl]
        rfl

end Values

end TypedClient
