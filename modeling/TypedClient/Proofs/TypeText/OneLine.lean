import TypedClient.Proofs.Piece.Closed
import TypedClient.Proofs.Piece.Comments

/-!
Type text on one line. Main statement: what collapsing leaves of a text is scanned as the pieces of
the text, without comments and with one space for each run of blanks, those in quoted spans included.
-/

namespace TypedClient

open Text

section Blanks

variable {c : Char} {front rest text : Text}

theorem collapseBlanks_solid (solid : isBlank c = false) (rest : Text) :
    collapseBlanks (c :: rest) = c :: collapseBlanks rest := by
  rw [collapseBlanks, if_neg (by simp [solid])]

/-- A run of blanks becomes one space. -/
theorem collapseBlanks_blank (blank : isBlank c = true) (rest : Text) :
    collapseBlanks (c :: rest) = ' ' :: collapseBlanks (rest.dropWhile isBlank) := by
  induction rest generalizing c with
  | nil => rw [collapseBlanks, if_pos blank]; rfl
  | cons d rest ih =>
    rw [collapseBlanks, if_pos blank]
    cases next : isBlank d with
    | false =>
      rw [if_neg (by simp [next]), List.dropWhile_cons_of_neg (by simp [next])]
    | true =>
      rw [if_pos (by simp [next]), ih next, List.dropWhile_cons_of_pos next]

/-- The first character of a collapsed text. -/
theorem head?_collapseBlanks (text : Text) :
    (collapseBlanks text).head? = text.head?.map fun c => if isBlank c then ' ' else c := by
  cases text with
  | nil => rfl
  | cons c rest =>
    cases blank : isBlank c with
    | true => rw [collapseBlanks_blank blank]; simp [blank]
    | false => rw [collapseBlanks_solid blank]; simp [blank]

theorem collapseBlanks_append (front : Text) {back : Text}
    (stops : back.head?.all (fun c => !isBlank c) = true) :
    collapseBlanks (front ++ back) = collapseBlanks front ++ collapseBlanks back := by
  induction front with
  | nil => rfl
  | cons c front ih =>
    cases blank : isBlank c with
    | false =>
      rw [List.cons_append, collapseBlanks_solid blank, collapseBlanks_solid blank, ih,
        List.cons_append]
    | true =>
      have next : (front ++ back).head?.any isBlank = front.head?.any isBlank := by
        cases front with
        | cons d front => rfl
        | nil =>
          cases back with
          | nil => rfl
          | cons d back => simpa using stops
      rw [List.cons_append, collapseBlanks, collapseBlanks, if_pos blank, if_pos blank, next, ih]
      split <;> rfl

theorem collapseBlanks_concat (front : Text) (solid : isBlank c = false) :
    collapseBlanks (front ++ [c]) = collapseBlanks front ++ [c] := by
  rw [collapseBlanks_append front (by simp [solid]), collapseBlanks_solid solid]
  rfl

/-- A text that ends with no blank is collapsed by itself. -/
theorem collapseBlanks_append_of_last (last : front.getLast? = some c) (solid : isBlank c = false)
    (rest : Text) :
    collapseBlanks (front ++ rest) = collapseBlanks front ++ collapseBlanks rest := by
  obtain ⟨front, rfl⟩ := List.getLast?_eq_some_iff.mp last
  rw [List.append_assoc, collapseBlanks_append front (by simp [solid]), List.singleton_append,
    collapseBlanks_solid solid, collapseBlanks_concat front solid, List.append_assoc]
  rfl

theorem solid_of_isQuote (mark : Piece.isQuote c = true) : isBlank c = false := by
  simp only [Piece.isQuote, Bool.or_eq_true, beq_iff_eq] at mark
  rcases mark with (rfl | rfl) | rfl <;> rfl

/-- A blank neither ends a span nor escapes what follows it. -/
theorem ne_marks_of_isBlank {quote : Char} (mark : Piece.isQuote quote = true)
    (blank : isBlank c = true) : c ≠ '\\' ∧ c ≠ quote := by
  constructor
  · rintro rfl
    contradiction
  · rintro rfl
    rw [solid_of_isQuote mark] at blank
    contradiction

theorem endsQuoted_dropBlanks {quote : Char} (mark : Piece.isQuote quote = true) (tail : Text) :
    Piece.endsQuoted quote (tail.dropWhile isBlank) = Piece.endsQuoted quote tail := by
  induction tail with
  | nil => rfl
  | cons c tail ih =>
    rw [List.dropWhile_cons]
    split
    · rename_i blank
      have plain := ne_marks_of_isBlank mark blank
      rw [ih, Piece.endsQuoted_cons plain.1, if_neg plain.2]
    · rfl

theorem isEmpty_collapseBlanks (text : Text) : (collapseBlanks text).isEmpty = text.isEmpty := by
  have head := head?_collapseBlanks text
  cases text with
  | nil => rfl
  | cons c rest =>
    cases same : collapseBlanks (c :: rest) with
    | nil => rw [same] at head; contradiction
    | cons => rfl

/-- A quoted span ends where it did once its blanks are collapsed. -/
theorem endsQuoted_collapseBlanks {quote : Char} (mark : Piece.isQuote quote = true)
    (tail : Text) :
    Piece.endsQuoted quote (collapseBlanks tail) = Piece.endsQuoted quote tail := by
  induction length : tail.length using Nat.strong_induction_on generalizing tail with
  | _ n ih =>
    have solid := solid_of_isQuote mark
    have shorter (rest : Text) (less : rest.length < n) :
        Piece.endsQuoted quote (collapseBlanks (rest.dropWhile isBlank)) =
          Piece.endsQuoted quote rest := by
      have bound := (List.dropWhile_sublist (l := rest) isBlank).length_le
      rw [ih _ (by omega) _ rfl, endsQuoted_dropBlanks mark]
    cases tail with
    | nil => rfl
    | cons c rest =>
      rw [List.length_cons] at length
      by_cases escape : c = '\\'
      · subst escape
        rw [collapseBlanks_solid (by decide)]
        cases rest with
        | nil => rfl
        | cons d rest =>
          rw [List.length_cons] at length
          cases blank : isBlank d with
          | true =>
            rw [collapseBlanks_blank blank, Piece.endsQuoted, Piece.endsQuoted,
              shorter rest (by omega)]
          | false =>
            rw [collapseBlanks_solid blank, Piece.endsQuoted, Piece.endsQuoted,
              ih _ (by omega) rest rfl]
      · cases blank : isBlank c with
        | true =>
          have other : c ≠ quote ∧ ' ' ≠ quote := by
            constructor
            · rintro rfl
              rw [solid] at blank
              contradiction
            · rintro rfl
              contradiction
          rw [collapseBlanks_blank blank, Piece.endsQuoted_cons (by decide), if_neg other.2,
            Piece.endsQuoted_cons escape, if_neg other.1, shorter rest (by omega)]
        | false =>
          rw [collapseBlanks_solid blank, Piece.endsQuoted_cons escape,
            Piece.endsQuoted_cons escape, ih _ (by omega) rest rfl, isEmpty_collapseBlanks]

theorem isClosedSpan_collapseBlanks {span : Text} (closed : Piece.isClosedSpan span = true) :
    Piece.isClosedSpan (collapseBlanks span) = true := by
  cases span with
  | nil => contradiction
  | cons quote tail =>
    rw [Piece.isClosedSpan, Bool.and_eq_true] at closed
    rw [collapseBlanks_solid (solid_of_isQuote closed.1), Piece.isClosedSpan, closed.1,
      endsQuoted_collapseBlanks closed.1, closed.2]
    rfl

/-- A blank in front of a collapsed text leaves a space, unless one is there. -/
theorem collapseBlanks_blank_cons (blank : isBlank c = true) (rest : Text) :
    collapseBlanks (c :: rest) =
      if (collapseBlanks rest).head? = some ' ' then collapseBlanks rest
      else ' ' :: collapseBlanks rest := by
  have next : (collapseBlanks rest).head? = some ' ' ↔ rest.head?.any isBlank = true := by
    rw [head?_collapseBlanks]
    cases rest with
    | nil => exact iff_of_false nofun nofun
    | cons d rest =>
      cases spaced : isBlank d with
      | true => simp [spaced]
      | false =>
        have other : d ≠ ' ' := by
          rintro rfl
          contradiction
        simp [spaced, other]
  rw [collapseBlanks, if_pos blank, if_congr next rfl rfl]

end Blanks

/-- Whether a piece is a blank of code or a comment. -/
def Piece.isSpacing : Piece → Bool
  | code c => isBlank c
  | quoted _ => false
  | comment _ => true

/-- The pieces of a text on one line. Where gaps stand, one space is left, and so it is for a run of
blanks in a quoted span. A line comment leaves nothing but the line feed behind it. -/
inductive Flattened (gap : Piece → Bool) : List Piece → List Piece → Prop
  | nil : Flattened gap [] []
  | code {c : Char} {found flat : List Piece} (solid : isBlank c = false)
      (later : Flattened gap found flat) : Flattened gap (.code c :: found) (.code c :: flat)
  | quoted {span : Text} {found flat : List Piece} (closed : Piece.isClosedSpan span = true)
      (later : Flattened gap found flat) :
      Flattened gap (.quoted span :: found) (.quoted (collapseBlanks span) :: flat)
  | space {piece : Piece} {found flat : List Piece} (spacing : gap piece = true)
      (leaves : piece.uncommented ≠ []) (alone : flat.head? ≠ some (.code ' '))
      (later : Flattened gap found flat) : Flattened gap (piece :: found) (.code ' ' :: flat)
  | drop {piece : Piece} {found flat : List Piece} (spacing : gap piece = true)
      (next : flat.head? = some (.code ' ')) (later : Flattened gap found flat) :
      Flattened gap (piece :: found) flat

/-- Whether a piece stands on a line by itself: no comment, no line feed and no open span. -/
def Piece.isOnLine : Piece → Bool
  | code c => c != '\n'
  | quoted span => isClosedSpan span
  | comment _ => false

theorem allClosed_of_isOnLine {found : List Piece} (line : found.all Piece.isOnLine = true) :
    allClosed found = true := by
  induction found with
  | nil => rfl
  | cons piece rest ih =>
    rw [List.all_cons, Bool.and_eq_true] at line
    cases piece with
    | code c => exact ih line.2
    | quoted span =>
      rw [allClosed, ih line.2, Bool.and_true]
      · exact line.1
      · intro comment same
        contradiction
    | comment span => exact absurd line.1 Bool.false_ne_true

namespace Flattened

variable {gap other : Piece → Bool} {found flat : List Piece}

theorem imp (flattened : Flattened gap found flat)
    (each : ∀ piece ∈ found, gap piece = true → other piece = true) :
    Flattened other found flat := by
  induction flattened with
  | nil => exact .nil
  | code solid _ ih => exact .code solid (ih fun piece member => each piece (.tail _ member))
  | quoted closed _ ih => exact .quoted closed (ih fun piece member => each piece (.tail _ member))
  | space spacing leaves alone _ ih =>
    exact .space (each _ (.head _) spacing) leaves alone
      (ih fun piece member => each piece (.tail _ member))
  | drop spacing next _ ih =>
    exact .drop (each _ (.head _) spacing) next (ih fun piece member => each piece (.tail _ member))

theorem onLine (flattened : Flattened gap found flat) : flat.all Piece.isOnLine = true := by
  induction flattened with
  | nil => rfl
  | @code c _ _ solid _ ih =>
    have noBreak : c ≠ '\n' := by
      rintro rfl
      contradiction
    rw [List.all_cons, ih, Piece.isOnLine, bne_iff_ne.mpr noBreak]
    rfl
  | quoted closed _ ih =>
    rw [List.all_cons, ih, Piece.isOnLine, isClosedSpan_collapseBlanks closed]
    rfl
  | space _ _ _ _ ih => rw [List.all_cons, ih]; rfl
  | drop _ _ _ ih => exact ih

/-- The pieces begin with a space if their text does. -/
theorem head?_eq_space_iff (flattened : Flattened gap found flat) :
    flat.head? = some (.code ' ') ↔ (textOf flat).head? = some ' ' := by
  have line := flattened.onLine
  cases flat with
  | nil => exact iff_of_false nofun nofun
  | cons piece rest =>
    rw [List.all_cons, Bool.and_eq_true] at line
    cases piece with
    | code c => simp [Piece.text]
    | quoted span =>
      have closed : Piece.isClosedSpan span = true := line.1
      cases span with
      | nil => contradiction
      | cons quote tail =>
        rw [Piece.isClosedSpan, Bool.and_eq_true] at closed
        have other : quote ≠ ' ' := by
          rintro rfl
          exact absurd closed.1 (by decide)
        simp [Piece.text, other]
    | comment span => exact absurd line.1 Bool.false_ne_true

/-- What is left of a text on one line, read off its pieces. -/
theorem text (flattened : Flattened gap found flat)
    (gaps : ∀ piece, gap piece = true → piece.isSpacing = true) :
    textOf flat = collapseBlanks (textOf (withoutComments found)) := by
  induction flattened with
  | nil => rfl
  | code solid _ ih =>
    rw [withoutComments_code, textOf_cons, textOf_cons, ih, Piece.text, List.singleton_append,
      List.singleton_append, collapseBlanks_solid solid]
  | @quoted span _ _ closed _ ih =>
    obtain ⟨quote, literal, same, _⟩ := Piece.literal_of_isClosedSpan closed
    have last : span.getLast? = some quote := by rw [same, List.getLast?_concat]
    have solid : isBlank quote = false := by
      rw [same, List.cons_append, Piece.isClosedSpan, Bool.and_eq_true] at closed
      exact solid_of_isQuote closed.1
    rw [withoutComments_quoted, textOf_cons, textOf_cons, ih]
    exact (collapseBlanks_append_of_last last solid _).symm
  | @space piece found flat spacing leaves alone later ih =>
    rw [Ne, later.head?_eq_space_iff, ih] at alone
    have blank := gaps piece spacing
    cases piece with
    | quoted span => contradiction
    | code c =>
      rw [withoutComments_code, textOf_cons, textOf_cons, ih, Piece.text, Piece.text,
        List.singleton_append, List.singleton_append, collapseBlanks_blank_cons blank,
        if_neg alone]
    | comment span =>
      have left := (uncommented_comment span).resolve_right leaves
      rw [withoutComments_cons, left, List.singleton_append, textOf_cons, textOf_cons, ih,
        Piece.text, List.singleton_append, List.singleton_append,
        collapseBlanks_blank_cons (by decide), if_neg alone]
  | @drop piece found flat spacing next later ih =>
    rw [later.head?_eq_space_iff, ih] at next
    have blank := gaps piece spacing
    cases piece with
    | quoted span => contradiction
    | code c =>
      rw [ih, withoutComments_code, textOf_cons, Piece.text, List.singleton_append,
        collapseBlanks_blank_cons blank, if_pos next]
    | comment span =>
      rw [ih, withoutComments_cons]
      rcases uncommented_comment span with left | left
      · rw [left, List.singleton_append, textOf_cons, Piece.text, List.singleton_append,
          collapseBlanks_blank_cons (by decide), if_pos next]
      · rw [left, List.nil_append]

end Flattened

section Texts

variable {found : List Piece}

/-- Pieces can be put on one line if their quoted spans are closed and they do not end with a comment,
and are scanned as they stand there. -/
theorem exists_flattened (aligned : Aligned found)
    (closed : ∀ span, .quoted span ∈ found → Piece.isClosedSpan span = true)
    (ends : ∀ span, found.getLast? ≠ some (.comment span)) :
    ∃ flat, Flattened Piece.isSpacing found flat ∧ Aligned flat := by
  induction found with
  | nil => exact ⟨[], .nil, trivial⟩
  | cons piece rest ih =>
    have endsLater : ∀ span, rest.getLast? ≠ some (.comment span) := by
      intro span last
      exact ends span (by rw [List.getLast?_cons, last]; rfl)
    obtain ⟨flat, later, alignedFlat⟩ :=
      ih aligned.2 (fun span member => closed span (.tail _ member)) endsLater
    have text := later.text fun _ spacing => spacing
    have spaced (blank : piece.isSpacing = true) (leaves : piece.uncommented ≠ []) :
        ∃ flat, Flattened Piece.isSpacing (piece :: rest) flat ∧ Aligned flat := by
      by_cases next : flat.head? = some (.code ' ')
      · exact ⟨flat, .drop blank next later, alignedFlat⟩
      · exact ⟨_, .space blank leaves next later,
          Piece.endsBefore_code rfl (absurd · (by decide)), alignedFlat⟩
    cases piece with
    | quoted span =>
      have here := closed span (.head _)
      exact ⟨_, .quoted here later,
        Piece.endsBefore_of_isClosedSpan (isClosedSpan_collapseBlanks here) _, alignedFlat⟩
    | code c =>
      cases blank : isBlank c with
      | true => exact spaced blank (List.cons_ne_nil _ _)
      | false =>
        obtain ⟨plain, alone⟩ := aligned.1.code
        refine ⟨_, .code blank later, Piece.endsBefore_code plain fun slash => ?_, alignedFlat⟩
        rw [text, head?_collapseBlanks, withoutComments,
          head?_uncommented aligned.2 (alone slash).1]
        cases next : (textOf rest).head? with
        | none => simp
        | some d =>
          rw [next] at alone
          cases blank : isBlank d with
          | true => simp [blank]
          | false => simpa [blank] using alone slash
    | comment span =>
      rcases uncommented_comment span with left | left
      · exact spaced rfl (by simp [left])
      · -- A line comment ends where the line does.
        have filled : rest ≠ [] := by
          rintro rfl
          exact ends span rfl
        obtain ⟨next, rest, rfl⟩ := List.exists_cons_of_ne_nil filled
        obtain ⟨c, starts⟩ := aligned.2.filled
        obtain rfl : c = '\n' := by
          rcases aligned.1.comment_cases with ⟨line, _, _, stops⟩ | ⟨block, rfl, _⟩
          · rw [starts] at stops
            simpa [Piece.inLine] using stops
          · contradiction
        have same := head?_uncommented aligned.2 (by rw [starts]; decide)
        refine ⟨flat, .drop rfl ?_ later, alignedFlat⟩
        rw [later.head?_eq_space_iff, text, head?_collapseBlanks, withoutComments, same, starts]
        rfl

/-- Pieces between the spacing at both of their ends. -/
theorem exists_core (found : List Piece) :
    ∃ lead core trail, found = lead ++ core ++ trail ∧ lead.all Piece.isSpacing = true ∧
      trail.all Piece.isSpacing = true ∧
      core.head?.all (fun piece => !piece.isSpacing) = true ∧
      core.getLast?.all (fun piece => !piece.isSpacing) = true := by
  have stop (found : List Piece) :
      (found.dropWhile Piece.isSpacing).head?.all (fun piece => !piece.isSpacing) = true := by
    have stops := List.head?_dropWhile_not Piece.isSpacing found
    cases first : (found.dropWhile Piece.isSpacing).head? with
    | none => rfl
    | some piece => simpa [first] using stops
  have whole : found.dropWhile Piece.isSpacing =
      ((found.dropWhile Piece.isSpacing).reverse.dropWhile Piece.isSpacing).reverse ++
        ((found.dropWhile Piece.isSpacing).reverse.takeWhile Piece.isSpacing).reverse := by
    rw [← List.reverse_append, List.takeWhile_append_dropWhile, List.reverse_reverse]
  have opening := stop found
  have ending := stop (found.dropWhile Piece.isSpacing).reverse
  generalize (found.dropWhile Piece.isSpacing).reverse.dropWhile Piece.isSpacing = core at whole ending
  refine ⟨found.takeWhile Piece.isSpacing, core.reverse,
    ((found.dropWhile Piece.isSpacing).reverse.takeWhile Piece.isSpacing).reverse, ?_,
    List.all_takeWhile, ?_, ?_, ?_⟩
  · rw [List.append_assoc, ← whole, List.takeWhile_append_dropWhile]
  · rw [List.all_reverse]
    exact List.all_takeWhile
  · cases first : core.reverse with
    | nil => rfl
    | cons piece rest =>
      rw [whole, first] at opening
      exact opening
  · rwa [List.getLast?_reverse]

theorem blank_of_spacing (spacing : found.all Piece.isSpacing = true) :
    (textOf (withoutComments found)).all isBlank = true := by
  induction found with
  | nil => rfl
  | cons piece rest ih =>
    rw [List.all_cons, Bool.and_eq_true] at spacing
    cases piece with
    | quoted span => exact absurd spacing.1 Bool.false_ne_true
    | code c =>
      rw [withoutComments_code, textOf_cons, List.all_append, ih spacing.2, Piece.text,
        List.all_cons, show isBlank c = true from spacing.1]
      rfl
    | comment span =>
      rw [withoutComments_cons, textOf_append, List.all_append, ih spacing.2]
      rcases uncommented_comment span with left | left
      · rw [left]; rfl
      · rw [left]; rfl

/-- Behind the spacing in front, a text without comments begins with no blank. -/
theorem head?_withoutComments_solid (aligned : Aligned found)
    (stops : found.head?.all (fun piece => !piece.isSpacing) = true) :
    (textOf (withoutComments found)).head?.all (fun c => !isBlank c) = true := by
  cases found with
  | nil => rfl
  | cons piece rest =>
    cases piece with
    | code c => simpa [Piece.isSpacing, Piece.text] using stops
    | comment span => exact absurd stops Bool.false_ne_true
    | quoted span =>
      obtain ⟨quote, tail, rfl, mark⟩ := aligned.1.starts_quoted
      simp [Piece.text, solid_of_isQuote mark]

theorem getLast?_withoutComments_solid
    (closed : ∀ span, .quoted span ∈ found → Piece.isClosedSpan span = true)
    (stops : found.getLast?.all (fun piece => !piece.isSpacing) = true) :
    (textOf (withoutComments found)).getLast?.all (fun c => !isBlank c) = true := by
  cases last : found.getLast? with
  | none => rw [List.getLast?_eq_none_iff.mp last]; rfl
  | some piece =>
    obtain ⟨front, rfl⟩ := List.getLast?_eq_some_iff.mp last
    rw [last] at stops
    rw [withoutComments_append, textOf_append]
    cases piece with
    | code c => simpa [Piece.isSpacing, Piece.text] using stops
    | comment span => exact absurd stops Bool.false_ne_true
    | quoted span =>
      have here := closed span (by simp)
      obtain ⟨quote, literal, rfl, _⟩ := Piece.literal_of_isClosedSpan here
      rw [List.cons_append, Piece.isClosedSpan, Bool.and_eq_true] at here
      rw [withoutComments_quoted, textOf_cons, Piece.text, withoutComments_nil, textOf_nil,
        List.append_nil, ← List.append_assoc, List.getLast?_concat]
      simp [solid_of_isQuote here.1]

/-- A type text on one line is scanned as what stands between the spacing at its ends, put on one
line. -/
theorem exists_flattened_core (aligned : Aligned found)
    (closed : ∀ span, .quoted span ∈ found → Piece.isClosedSpan span = true) :
    ∃ lead core trail flat, found = lead ++ core ++ trail ∧ lead.all Piece.isSpacing = true ∧
      trail.all Piece.isSpacing = true ∧ Flattened Piece.isSpacing core flat ∧ Aligned flat ∧
      textOf flat = collapseType (textOf found) := by
  obtain ⟨lead, core, trail, rfl, opening, ending, starts, stops⟩ := exists_core found
  have alignedCore : Aligned core := aligned.of_append_left.of_append_right
  have closedCore : ∀ span, .quoted span ∈ core → Piece.isClosedSpan span = true :=
    fun span member => closed span (by simp [member])
  have ends : ∀ span, core.getLast? ≠ some (.comment span) := by
    intro span last
    rw [last] at stops
    exact absurd stops Bool.false_ne_true
  obtain ⟨flat, flattened, alignedFlat⟩ := exists_flattened alignedCore closedCore ends
  refine ⟨lead, core, trail, flat, rfl, opening, ending, flattened, alignedFlat, ?_⟩
  have trimmed : trim (textOf (withoutComments (lead ++ core ++ trail))) =
      textOf (withoutComments core) := by
    rw [withoutComments_append, withoutComments_append, textOf_append, textOf_append,
      trim_append_blanks (blank_of_spacing ending)]
    exact trim_append _ (blank_of_spacing opening)
      (head?_withoutComments_solid alignedCore starts)
      (getLast?_withoutComments_solid closedCore stops)
  rw [flattened.text fun _ spacing => spacing, collapseType, stripComments_textOf aligned, trimmed]

end Texts

end TypedClient
