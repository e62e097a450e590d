import TypedClient.Proofs.TypeLiteral.Passing

/-!
Bodies put on one line. Main statement: where no line feed ends a member and every blank of code is
one of ASCII, the members on one line are those of the body, their names, values and literals put on
one line as well.
-/

namespace TypedClient

open Text

theorem Piece.isSpacing_of_isTrivia (piece : Piece) (trivia : piece.isTrivia = true) :
    piece.isSpacing = true := by
  cases piece with
  | code c => exact isBlank_of_isAsciiBlank trivia
  | quoted span => contradiction
  | comment span => rfl

theorem Piece.isKeyPiece_of_isTrivia (piece : Piece) (trivia : piece.isTrivia = true) :
    piece.isKeyPiece = false := by
  cases piece with
  | quoted span => contradiction
  | comment span => rfl
  | code c =>
    cases key : (code c).isKeyPiece with
    | false => rfl
    | true =>
      have blank := isBlank_of_isAsciiBlank trivia
      exact absurd (blank.symm.trans (isBlank_of_isKeyChar key)) nofun

namespace Flattened

variable {found flat after : List Piece} {gap p : Piece → Bool}

/-- What is passed over along with gaps. -/
theorem dropWhile (flattened : Flattened gap found flat)
    (gaps : ∀ piece, gap piece = true → p piece = true) (space : p (.code ' ') = true)
    (spans : ∀ span, p (.quoted span) = false) :
    Flattened gap (found.dropWhile p) (flat.dropWhile p) := by
  induction flattened with
  | nil => exact .nil
  | @code c _ _ solid later ih =>
    rw [List.dropWhile_cons, List.dropWhile_cons]
    split
    · exact ih
    · exact .code solid later
  | quoted closed later ih =>
    rw [List.dropWhile_cons_of_neg (by simp [spans]), List.dropWhile_cons_of_neg (by simp [spans])]
    exact .quoted closed later
  | space spacing _ _ _ ih =>
    rw [List.dropWhile_cons_of_pos (gaps _ spacing), List.dropWhile_cons_of_pos space]
    exact ih
  | drop spacing _ _ ih =>
    rw [List.dropWhile_cons_of_pos (gaps _ spacing)]
    exact ih

theorem skipTrivia (flattened : Flattened Piece.isTrivia found flat) :
    Flattened Piece.isTrivia (skipTrivia found) (skipTrivia flat) :=
  flattened.dropWhile (fun _ => id) rfl fun _ => rfl

theorem dropSeparators (flattened : Flattened Piece.isTrivia found flat) :
    Flattened Piece.isTrivia (found.dropWhile Piece.isSeparator)
      (flat.dropWhile Piece.isSeparator) :=
  flattened.dropWhile Piece.isSeparator_of_isTrivia rfl fun _ => rfl

theorem nil_iff (flattened : Flattened gap found flat) : found = [] ↔ flat = [] := by
  cases flattened with
  | nil => exact Iff.rfl
  | code => exact iff_of_false nofun nofun
  | quoted => exact iff_of_false nofun nofun
  | space => exact iff_of_false nofun nofun
  | drop spacing next later =>
    refine iff_of_false nofun ?_
    rintro rfl
    contradiction

/-- Behind gaps both lists go on with the same piece. -/
theorem any_isTrivia (flattened : Flattened Piece.isTrivia found flat) :
    flat.head?.any Piece.isTrivia = found.head?.any Piece.isTrivia := by
  cases flattened with
  | nil => rfl
  | code => rfl
  | quoted => rfl
  | @space piece _ _ spacing =>
    have trivia : piece.isTrivia = true := spacing
    simp [trivia, show Piece.isTrivia (.code ' ') = true from rfl]
  | @drop piece _ _ spacing next =>
    have trivia : piece.isTrivia = true := spacing
    simp [next, trivia, show Piece.isTrivia (.code ' ') = true from rfl]

/-- A run of pieces that no gap is among is the same on one line. -/
theorem run (flattened : Flattened gap found flat)
    (gaps : ∀ piece, gap piece = true → p piece = false) (space : p (.code ' ') = false)
    (spans : ∀ span, p (.quoted span) = false) :
    flat.takeWhile p = found.takeWhile p ∧
      Flattened gap (found.dropWhile p) (flat.dropWhile p) := by
  induction flattened with
  | nil => exact ⟨rfl, .nil⟩
  | @code c _ _ solid later ih =>
    cases taken : p (.code c) with
    | true => simpa [taken] using ih
    | false => simpa [taken] using Flattened.code solid later
  | quoted closed later ih => simpa [spans] using Flattened.quoted closed later
  | @space piece _ _ spacing leaves alone later =>
    simpa [gaps _ spacing, space] using Flattened.space spacing leaves alone later
  | @drop piece _ flat spacing next later =>
    obtain ⟨rest, rfl⟩ := List.head?_eq_some_iff.mp next
    simpa [gaps _ spacing, space] using Flattened.drop spacing next later

theorem ne_code_of_isSpacing {c : Char} (solid : isBlank c = false) {piece : Piece}
    (spacing : piece.isSpacing = true) : piece ≠ .code c := by
  rintro rfl
  exact absurd (Eq.trans (Eq.symm spacing) solid) (by decide)

/-- A bracket pair is closed on one line where it is closed else. -/
theorem splitClose {opening closing : Char} (opens : isBlank opening = false)
    (closes : isBlank closing = false) (flattened : Flattened gap found flat)
    (gaps : ∀ piece, gap piece = true → piece.isSpacing = true) (depth : Nat) :
    (splitClose opening closing depth found = none ∧
        TypedClient.splitClose opening closing depth flat = none) ∨
      ∃ inner after innerFlat afterFlat,
        TypedClient.splitClose opening closing depth found = some (inner, after) ∧
        TypedClient.splitClose opening closing depth flat = some (innerFlat, afterFlat) ∧
        Flattened gap inner innerFlat ∧ Flattened gap after afterFlat := by
  induction flattened generalizing depth with
  | nil => exact .inl ⟨rfl, rfl⟩
  | @code c _ _ solid later ih =>
    rw [splitClose_code, splitClose_code]
    split
    · exact .inr ⟨[], _, [], _, rfl, rfl, .nil, later⟩
    · rcases ih _ with ⟨none, flatNone⟩ |
        ⟨inner, after, innerFlat, afterFlat, split, flatSplit, inside, behind⟩
      · exact .inl ⟨by rw [none]; rfl, by rw [flatNone]; rfl⟩
      · exact .inr ⟨_, _, _, _, by rw [split]; rfl, by rw [flatSplit]; rfl,
          .code solid inside, behind⟩
  | quoted closed _ ih =>
    rw [splitClose_quoted, splitClose_quoted]
    rcases ih depth with ⟨none, flatNone⟩ |
      ⟨inner, after, innerFlat, afterFlat, split, flatSplit, inside, behind⟩
    · exact .inl ⟨by rw [none]; rfl, by rw [flatNone]; rfl⟩
    · exact .inr ⟨_, _, _, _, by rw [split]; rfl, by rw [flatSplit]; rfl,
        .quoted closed inside, behind⟩
  | space spacing leaves alone _ ih =>
    rw [splitClose_other (ne_code_of_isSpacing opens (gaps _ spacing))
        (ne_code_of_isSpacing closes (gaps _ spacing)),
      splitClose_other (ne_code_of_isSpacing opens rfl) (ne_code_of_isSpacing closes rfl)]
    rcases ih depth with ⟨none, flatNone⟩ |
      ⟨inner, after, innerFlat, afterFlat, split, flatSplit, inside, behind⟩
    · exact .inl ⟨by rw [none]; rfl, by rw [flatNone]; rfl⟩
    · refine .inr ⟨_, _, _, _, by rw [split]; rfl, by rw [flatSplit]; rfl,
        .space spacing leaves (fun next => alone ?_) inside, behind⟩
      obtain ⟨rest, rfl⟩ := List.head?_eq_some_iff.mp next
      rw [splitClose_append flatSplit]
      rfl
  | @drop _ _ flat spacing next _ ih =>
    rw [splitClose_other (ne_code_of_isSpacing opens (gaps _ spacing))
      (ne_code_of_isSpacing closes (gaps _ spacing))]
    rcases ih depth with ⟨none, flatNone⟩ |
      ⟨inner, after, innerFlat, afterFlat, split, flatSplit, inside, behind⟩
    · exact .inl ⟨by rw [none]; rfl, flatNone⟩
    · refine .inr ⟨_, _, _, _, by rw [split]; rfl, flatSplit, .drop spacing ?_ inside, behind⟩
      rw [splitClose_append flatSplit] at next
      cases innerFlat with
      | nil =>
        cases next
        contradiction
      | cons => exact next

end Flattened

section Names

variable {c a b : Char} {text : Text}

theorem collapseBlanks_of_solid (solid : text.all (fun c => !isBlank c) = true) :
    collapseBlanks text = text := by
  induction text with
  | nil => rfl
  | cons c rest ih =>
    rw [List.all_cons, Bool.and_eq_true] at solid
    rw [collapseBlanks_solid (by simpa using solid.1), ih solid.2]

/-- A text that is solid once its blanks are collapsed has none. -/
theorem eq_of_collapseBlanks_solid (solid : (collapseBlanks text).all (fun c => !isBlank c) = true) :
    collapseBlanks text = text := by
  induction text with
  | nil => rfl
  | cons c rest ih =>
    cases blank : isBlank c with
    | true =>
      rw [collapseBlanks_blank blank] at solid
      contradiction
    | false =>
      rw [collapseBlanks_solid blank, List.all_cons, Bool.and_eq_true] at solid
      rw [collapseBlanks_solid blank, ih solid.2]

theorem replace_cons_of_other {old new : Text} (other : c ≠ a) (rest : Text) :
    replace (a :: old) new (c :: rest) = c :: replace (a :: old) new rest := by
  rw [replace, if_neg]
  simp [List.isPrefixOf, Ne.symm other]

theorem replace_pair (rest : Text) :
    replace [a, b] [b] (a :: b :: rest) = b :: replace [a, b] [b] rest := by
  rw [replace, if_pos (by simp [List.isPrefixOf])]
  rfl

theorem replace_cons_of_next {rest : Text} (next : rest.head? ≠ some b) :
    replace [a, b] [b] (c :: rest) = c :: replace [a, b] [b] rest := by
  rw [replace, if_neg]
  cases rest with
  | nil => simp [List.isPrefixOf]
  | cons d rest =>
    have other : b ≠ d := fun same => next (by rw [same]; rfl)
    simp [List.isPrefixOf, other]

/-- Blanks in front stay in front where marks are taken out of a text. -/
theorem replace_dropBlanks (solid : isBlank a = false) (last : isBlank b = false) (text : Text) :
    replace [a, b] [b] (text.dropWhile isBlank) = (replace [a, b] [b] text).dropWhile isBlank := by
  induction text with
  | nil =>
    rw [List.dropWhile_nil, replace]
    rfl
  | cons c rest ih =>
    cases blank : isBlank c with
    | true =>
      have other : c ≠ a := by
        rintro rfl
        exact absurd (blank.symm.trans solid) (by decide)
      rw [List.dropWhile_cons_of_pos blank, ih, replace_cons_of_other other,
        List.dropWhile_cons_of_pos blank]
    | false =>
      rw [List.dropWhile_cons_of_neg (by simp [blank]), replace]
      split
      · rw [List.singleton_append, List.dropWhile_cons_of_neg (by simp [last])]
      · rw [List.dropWhile_cons_of_neg (by simp [blank])]

/-- Taking marks in front of a character out of a text, and its blanks, goes in either order. -/
theorem replace_collapseBlanks (solid : isBlank a = false) (last : isBlank b = false)
    (text : Text) : replace [a, b] [b] (collapseBlanks text) =
      collapseBlanks (replace [a, b] [b] text) := by
  induction length : text.length using Nat.strong_induction_on generalizing text with
  | _ n ih =>
    cases text with
    | nil =>
      rw [collapseBlanks, replace]
      rfl
    | cons c rest =>
      rw [List.length_cons] at length
      cases blank : isBlank c with
      | true =>
        have bound := (List.dropWhile_sublist (l := rest) isBlank).length_le
        have other : c ≠ a := by
          rintro rfl
          exact absurd (blank.symm.trans solid) (by decide)
        have space : ' ' ≠ a := by
          rintro rfl
          contradiction
        rw [collapseBlanks_blank blank, replace_cons_of_other space,
          ih _ (by omega) _ rfl, replace_dropBlanks solid last, replace_cons_of_other other,
          collapseBlanks_blank blank]
      | false =>
        by_cases mark : c = a ∧ rest.head? = some b
        · obtain ⟨rfl, next⟩ := mark
          obtain ⟨rest, rfl⟩ := List.head?_eq_some_iff.mp next
          rw [List.length_cons] at length
          rw [collapseBlanks_solid blank, collapseBlanks_solid last, replace_pair, replace_pair,
            collapseBlanks_solid last, ih _ (by omega) rest rfl]
        · have later := ih _ (by omega) rest rfl
          have kept : replace [a, b] [b] (c :: rest) = c :: replace [a, b] [b] rest := by
            by_cases first : c = a
            · exact replace_cons_of_next fun next => mark ⟨first, next⟩
            · exact replace_cons_of_other first rest
          have keptFlat : replace [a, b] [b] (c :: collapseBlanks rest) =
              c :: replace [a, b] [b] (collapseBlanks rest) := by
            by_cases first : c = a
            · refine replace_cons_of_next fun next => mark ⟨first, ?_⟩
              rw [head?_collapseBlanks] at next
              obtain ⟨d, head, same⟩ := Option.map_eq_some_iff.mp next
              split at same
              · rw [← same] at last
                contradiction
              · rw [head, same]
            · exact replace_cons_of_other first _
          rw [collapseBlanks_solid blank, keptFlat, later, kept, collapseBlanks_solid blank]

/-- A name on one line: without the comments in an index signature, and with one space for each run
of blanks. -/
def FlatName (name flat : Text) : Prop :=
  flat = collapseBlanks name ∨ name.head? = some '[' ∧ flat = collapseBlanks (stripComments name)

theorem FlatName.eq_readonly {name flat : Text} (flattened : FlatName name flat) :
    flat = "readonly" ↔ name = "readonly" := by
  rcases flattened with rfl | ⟨index, rfl⟩
  · constructor
    · intro same
      have solid : (collapseBlanks name).all (fun c => !isBlank c) = true := by
        rw [same]
        decide
      rw [← eq_of_collapseBlanks_solid solid, same]
    · rintro rfl
      rfl
  · obtain ⟨inside, rfl⟩ := List.head?_eq_some_iff.mp index
    have free : stripComments ('[' :: inside) = '[' :: stripComments inside :=
      stripComments_append (show ("[" : Text).all Piece.isInert = true from rfl) inside
    rw [free, collapseBlanks_solid (by decide)]
    exact iff_of_false nofun nofun

end Names

section Keys

variable {found flat after : List Piece}

/-- A key is read off both lists, with its name on one line, or off neither. -/
def FlatKey (left right : Option (Text × List Piece)) : Prop :=
  left = none ∧ right = none ∨
    ∃ name flatName after afterFlat, left = some (name, after) ∧
      right = some (flatName, afterFlat) ∧ FlatName name flatName ∧
      Flattened Piece.isTrivia after afterFlat

theorem readKey?_spacing {piece : Piece} (spacing : piece.isSpacing = true) (rest : List Piece) :
    readKey? (piece :: rest) = none := by
  cases piece with
  | quoted span => contradiction
  | comment span => rfl
  | code c =>
    have blank : isBlank c = true := spacing
    have index : c ≠ '[' := by
      rintro rfl
      contradiction
    have word : ¬ isKeyChar c = true := fun key =>
      absurd (blank.symm.trans (isBlank_of_isKeyChar key)) nofun
    rw [readKey?, if_neg index, if_neg word]

theorem solid_takeWhile (found : List Piece) :
    (textOf (found.takeWhile Piece.isKeyPiece)).all (fun c => !isBlank c) = true := by
  induction found with
  | nil => rfl
  | cons piece rest ih =>
    rw [List.takeWhile_cons]
    split
    · rename_i key
      cases piece with
      | code c =>
        rw [textOf_cons, List.all_append, ih, Bool.and_true]
        simp [Piece.text, isBlank_of_isKeyChar key]
      | quoted span => contradiction
      | comment span => contradiction
    · rfl

theorem insideQuotes?_collapseBlanks {span literal : Text}
    (closed : Piece.isClosedSpan span = true) (inside : insideQuotes? span = some literal) :
    insideQuotes? (collapseBlanks span) = some (collapseBlanks literal) := by
  obtain ⟨quote, inner, rfl, same⟩ := Piece.literal_of_isClosedSpan closed
  obtain rfl : inner = literal := Option.some.inj (same.symm.trans inside)
  have mark : Piece.isQuote quote = true := by
    rw [List.cons_append, Piece.isClosedSpan, Bool.and_eq_true] at closed
    exact closed.1
  have solid := solid_of_isQuote mark
  rw [List.cons_append, collapseBlanks_solid solid, collapseBlanks_concat _ solid, insideQuotes?,
    List.tail_cons, List.reverse_append]
  simp [Piece.utf8Size_of_isQuote mark]

theorem flatKey_index {inner innerFlat after : List Piece}
    (aligned : Aligned (.code '[' :: (inner ++ .code ']' :: after)))
    (inside : Flattened Piece.isTrivia inner innerFlat) :
    '[' :: textOf innerFlat ++ [']'] =
      collapseBlanks (stripComments ('[' :: textOf inner ++ [']'])) := by
  have whole : Aligned ((.code '[' :: inner ++ [.code ']']) ++ after) := by simpa using aligned
  have text : '[' :: textOf inner ++ [']'] = textOf (.code '[' :: inner ++ [.code ']']) := by
    simp [Piece.text]
  have bare : textOf (withoutComments (.code '[' :: inner ++ [.code ']'])) =
      '[' :: textOf (withoutComments inner) ++ [']'] := by
    rw [List.cons_append, withoutComments_code, withoutComments_append]
    simp [Piece.text]
  rw [text, stripComments_textOf whole.of_append_left, bare, List.cons_append, List.cons_append,
    collapseBlanks_solid (by decide), collapseBlanks_concat _ (by decide),
    inside.text Piece.isSpacing_of_isTrivia]

theorem flatKey_readKey? (aligned : Aligned found)
    (flattened : Flattened Piece.isTrivia found flat) :
    FlatKey (readKey? found) (readKey? flat) := by
  cases flattened with
  | nil => exact .inl ⟨rfl, rfl⟩
  | space spacing leaves alone later =>
    exact .inl ⟨readKey?_spacing (Piece.isSpacing_of_isTrivia _ spacing) _,
      readKey?_spacing rfl _⟩
  | drop spacing next later =>
    obtain ⟨rest, rfl⟩ := List.head?_eq_some_iff.mp next
    exact .inl ⟨readKey?_spacing (Piece.isSpacing_of_isTrivia _ spacing) _,
      readKey?_spacing rfl _⟩
  | @quoted span rest _ closed later =>
    have head : (collapseBlanks span).head? = span.head? := by
      cases span with
      | nil => contradiction
      | cons quote tail =>
        rw [Piece.isClosedSpan, Bool.and_eq_true] at closed
        rw [collapseBlanks_solid (solid_of_isQuote closed.1)]
        rfl
    rw [readKey?, readKey?, head]
    split
    · exact .inl ⟨rfl, rfl⟩
    · obtain ⟨quote, literal, _, inside⟩ := Piece.literal_of_isClosedSpan closed
      rw [inside, insideQuotes?_collapseBlanks closed inside]
      refine .inr ⟨_, _, _, _, rfl, rfl, .inl ?_, later⟩
      have first : replace "\\\"" "\"" (collapseBlanks literal) =
          collapseBlanks (replace "\\\"" "\"" literal) :=
        replace_collapseBlanks (by decide) (by decide) literal
      rw [first]
      exact replace_collapseBlanks (by decide) (by decide) _
  | @code c rest restFlat solid later =>
    rw [readKey?, readKey?]
    by_cases index : c = '['
    · subst index
      rw [if_pos rfl, if_pos rfl]
      have opens : isBlank '[' = false := rfl
      have closes : isBlank ']' = false := rfl
      rcases later.splitClose opens closes Piece.isSpacing_of_isTrivia 0 with ⟨none, flatNone⟩ |
        ⟨inner, after, innerFlat, afterFlat, split, flatSplit, inside, behind⟩
      · rw [none, flatNone]
        exact .inl ⟨rfl, rfl⟩
      · rw [split, flatSplit]
        rw [splitClose_append split] at aligned
        exact .inr ⟨_, _, _, _, rfl, rfl, .inr ⟨rfl, flatKey_index aligned inside⟩, behind⟩
    · rw [if_neg index, if_neg index]
      split
      · rename_i key
        obtain ⟨taken, left⟩ :=
          later.run Piece.isKeyPiece_of_isTrivia (show Piece.isKeyPiece (.code ' ') = false from rfl)
            fun _ => rfl
        rw [taken]
        refine .inr ⟨_, _, _, _, rfl, rfl, .inl ?_, left⟩
        rw [collapseBlanks_solid solid, collapseBlanks_of_solid (solid_takeWhile rest)]
      · exact .inl ⟨rfl, rfl⟩

theorem flatKey_readModifiedKey? (aligned : Aligned found)
    (flattened : Flattened Piece.isTrivia found flat) :
    FlatKey (readModifiedKey? found) (readModifiedKey? flat) := by
  unfold readModifiedKey?
  rcases flatKey_readKey? aligned flattened with ⟨none, flatNone⟩ |
    ⟨name, flatName, after, afterFlat, read, flatRead, same, behind⟩
  · rw [none, flatNone]
    exact .inl ⟨rfl, rfl⟩
  · rw [read, flatRead]
    have skips : (skipTrivia afterFlat).length < afterFlat.length ↔
        (skipTrivia after).length < after.length := by
      rw [length_skipTrivia, length_skipTrivia, behind.any_isTrivia]
    dsimp only
    rw [if_congr (and_congr same.eq_readonly skips) rfl rfl]
    split
    · have alignedAfter : Aligned (skipTrivia after) := by
        have leads := (Standing.leads_of_readKey? read).trans (Standing.leads_skipTrivia after)
        exact leads.aligned aligned
      rcases flatKey_readKey? alignedAfter behind.skipTrivia with ⟨none, flatNone⟩ |
        ⟨second, flatSecond, rest, restFlat, read, flatRead, sameSecond, later⟩
      · rw [none, flatNone]
        exact .inr ⟨_, _, _, _, rfl, rfl, same, behind⟩
      · rw [read, flatRead]
        exact .inr ⟨_, _, _, _, rfl, rfl, sameSecond, later⟩
    · exact .inr ⟨_, _, _, _, rfl, rfl, same, behind⟩

theorem Flattened.readMark (flattened : Flattened Piece.isTrivia found flat) :
    (readMark flat).1 = (readMark found).1 ∧
      Flattened Piece.isTrivia (TypedClient.readMark found).2 (TypedClient.readMark flat).2 := by
  have start := flattened.skipTrivia
  have stops := List.head?_dropWhile_not Piece.isTrivia found
  unfold TypedClient.readMark
  unfold TypedClient.skipTrivia at start ⊢
  generalize found.dropWhile Piece.isTrivia = rest at start stops
  generalize flat.dropWhile Piece.isTrivia = restFlat at start
  cases start with
  | nil => exact ⟨rfl, .nil⟩
  | quoted closed later => exact ⟨rfl, .quoted closed later⟩
  | space spacing => simp [spacing] at stops
  | drop spacing => simp [spacing] at stops
  | @code c rest restFlat solid later =>
    by_cases mark : c = '?'
    · subst mark
      exact ⟨rfl, later.skipTrivia⟩
    · simp [mark]
      exact .code solid later

end Keys

section Values

variable {found flat : List Piece} {place bare : Standing} {before beforeFlat : Text}

open Standing

/-- A character that is no line feed ends a value on one line if it does else. -/
theorem stops_flat {c : Char} (solid : isBlank c = false) (pair : bare.pair = place.pair)
    (angles : bare.angles = place.angles) {after afterFlat : List Piece}
    (stops : place.stops before (.code c) after = true) :
    bare.stops beforeFlat (.code c) afterFlat = true := by
  obtain ⟨outside, _, ⟨⟩, ends⟩ := exists_of_stops stops
  have outsideFlat : bare.Outside := ⟨pair.trans outside.1, angles.trans outside.2⟩
  rcases ends with rfl | rfl | rfl
  · exact stops_of_separator outsideFlat (.inl rfl) beforeFlat afterFlat
  · exact stops_of_separator outsideFlat (.inr rfl) beforeFlat afterFlat
  · contradiction

theorem goesOn_of_isTrivia {piece : Piece} {rest : List Piece} (trivia : piece.isTrivia = true)
    (ends : (splitValue place.angles place.pair before (piece :: rest)).2.head? ≠
      some (.code '\n')) : ¬ place.stops before piece rest = true := by
  intro stops
  rw [splitValue_of_stops stops] at ends
  obtain ⟨_, c, rfl, rfl | rfl | rfl⟩ := exists_of_stops stops
  · contradiction
  · contradiction
  · exact ends rfl

theorem goesOn_space (rest : List Piece) : ¬ bare.stops beforeFlat (.code ' ') rest = true := by
  intro stops
  obtain ⟨_, _, ⟨⟩, ends⟩ := exists_of_stops stops
  revert ends
  decide

/-- Where no line feed ends a value, it ends at the same place on one line. -/
theorem flattened_splitValue (flattened : Flattened Piece.isTrivia found flat)
    (aligned : Aligned found) (alignedFlat : Aligned flat) (paired : place.Paired)
    (alike : place.Alike bare flat) (knows : place.Knows before found)
    (knowsFlat : bare.Knows beforeFlat flat)
    (ends : (splitValue place.angles place.pair before found).2.head? ≠ some (.code '\n')) :
    Flattened Piece.isTrivia (splitValue place.angles place.pair before found).1
        (splitValue bare.angles bare.pair beforeFlat flat).1 ∧
      Flattened Piece.isTrivia ((splitValue place.angles place.pair before found).2.drop 1)
        ((splitValue bare.angles bare.pair beforeFlat flat).2.drop 1) := by
  induction flattened generalizing place bare before beforeFlat with
  | nil => exact ⟨.nil, .nil⟩
  | @code c rest restFlat solid later ih =>
    by_cases stops : place.stops before (.code c) rest = true
    · rw [splitValue_of_stops stops,
        splitValue_of_stops (stops_flat solid alike.pair alike.angles stops)]
      exact ⟨.nil, later⟩
    · have goesOn : ¬ bare.stops beforeFlat (.code c) restFlat = true := fun stopsFlat =>
        stops (stops_flat solid alike.pair.symm alike.angles.symm stopsFlat)
      rw [splitValue_of_goesOn knows stops] at ends ⊢
      rw [splitValue_of_goesOn knowsFlat goesOn]
      obtain ⟨value, left⟩ := ih aligned.2 alignedFlat.2 (paired.next _) (alike.next _)
        (Knows.next aligned place before) (Knows.next alignedFlat bare beforeFlat) ends
      exact ⟨.code solid value, left⟩
  | @quoted span rest restFlat closed later ih =>
    have stops : ¬ place.stops before (.quoted span) rest = true := nofun
    have goesOn : ¬ bare.stops beforeFlat (.quoted (collapseBlanks span)) restFlat = true := nofun
    rw [splitValue_of_goesOn knows stops] at ends ⊢
    rw [splitValue_of_goesOn knowsFlat goesOn]
    obtain ⟨value, left⟩ := ih aligned.2 alignedFlat.2 (paired.next _)
      (alike.span span (collapseBlanks span) restFlat)
      (Knows.next aligned place before) (Knows.next alignedFlat bare beforeFlat) ends
    exact ⟨.quoted closed value, left⟩
  | @space piece rest restFlat spacing leaves alone later ih =>
    have goesOn := goesOn_of_isTrivia spacing ends
    rw [splitValue_of_goesOn knows goesOn] at ends ⊢
    rw [splitValue_of_goesOn knowsFlat (goesOn_space restFlat)]
    obtain ⟨value, left⟩ := ih aligned.2 alignedFlat.2 (paired.next _)
      (alike.space paired (Piece.isSpacing_of_isTrivia _ spacing) restFlat)
      (Knows.next aligned place before) (Knows.next alignedFlat bare beforeFlat) ends
    refine ⟨.space spacing leaves (fun starts => alone ?_) value, left⟩
    rw [← splitValue_append (bare.next (.code ' ')).angles (bare.next (.code ' ')).pair
      ((Piece.code ' ').text.reverse ++ beforeFlat) restFlat, List.head?_append, starts]
    rfl
  | @drop piece rest flat spacing next later ih =>
    have goesOn := goesOn_of_isTrivia spacing ends
    rw [splitValue_of_goesOn knows goesOn] at ends ⊢
    obtain ⟨value, left⟩ := ih aligned.2 alignedFlat (paired.next _)
      (alike.drop paired (Piece.isSpacing_of_isTrivia _ spacing) next)
      (Knows.next aligned place before) knowsFlat ends
    refine ⟨.drop spacing ?_ value, left⟩
    obtain ⟨restFlat, rfl⟩ := List.head?_eq_some_iff.mp next
    rw [splitValue_of_goesOn knowsFlat (goesOn_space restFlat)]
    rfl

theorem flattened_readValue (flattened : Flattened Piece.isTrivia found flat)
    (aligned : Aligned found) (alignedFlat : Aligned flat)
    (ends : (readValue found).2.head? ≠ some (.code '\n')) :
    Flattened Piece.isTrivia (readValue found).1 (readValue flat).1 ∧
      Flattened Piece.isTrivia ((readValue found).2.drop 1) ((readValue flat).2.drop 1) :=
  flattened_splitValue flattened aligned alignedFlat paired_outer ⟨rfl, rfl, fun _ => rfl⟩
    (Knows.start found) (Knows.start flat) ends

end Values

section Entries

variable {found flat : List Piece}

theorem readEntry_aligned (aligned : Aligned found) : Aligned (readEntry found).2 := by
  rw [readEntry_eq_drop]
  cases left : entryEnd found with
  | nil => trivial
  | cons piece rest => exact (Standing.leads_of_entryEnd aligned left).aligned aligned

/-- A member with its name and value on one line. -/
structure FlatMember (member flat : Member) : Prop where
  name : FlatName member.name flat.name
  optional : flat.optional = member.optional
  value : ∃ found line, Aligned found ∧ Aligned line ∧ Flattened Piece.isTrivia found line ∧
    member.value = trim (textOf found) ∧ flat.value = trim (textOf line)

theorem readEntry_of_colon {name : Text} {optional : Bool} {after value : List Piece}
    (read : readModifiedKey? found = some (name, after))
    (mark : readMark after = (optional, .code ':' :: value)) :
    readEntry found = (some ⟨⟨name, optional, trim (textOf (readValue value).1)⟩, value⟩,
        (readValue value).2.drop 1) ∧
      entryEnd found = (readValue value).2 := by
  constructor
  · rw [readEntry, read]
    simp only [mark]
  · rw [entryEnd, read]
    simp only [mark]

theorem readEntry_of_noColon {name : Text} {optional : Bool} {after rest : List Piece}
    (read : readModifiedKey? found = some (name, after))
    (mark : readMark after = (optional, rest)) (noColon : ∀ value, rest ≠ .code ':' :: value) :
    readEntry found = (none, (readValue rest).2.drop 1) ∧ entryEnd found = (readValue rest).2 := by
  constructor
  · rw [readEntry, read]
    simp only [mark]
  · rw [entryEnd, read]
    simp only [mark]

theorem flattened_readEntry (flattened : Flattened Piece.isTrivia found flat)
    (aligned : Aligned found) (alignedFlat : Aligned flat)
    (ends : (entryEnd found).head? ≠ some (.code '\n')) :
    List.Forall₂ (fun left right => FlatMember left.member right.member)
        (readEntry found).1.toList (readEntry flat).1.toList ∧
      Flattened Piece.isTrivia (readEntry found).2 (readEntry flat).2 := by
  rcases flatKey_readModifiedKey? aligned flattened with ⟨none, flatNone⟩ |
    ⟨name, flatName, after, afterFlat, read, flatRead, same, behind⟩
  · rw [entryEnd, none] at ends
    rw [readEntry, readEntry, none, flatNone]
    exact ⟨.nil, (flattened_readValue flattened aligned alignedFlat ends).2⟩
  · have alignedMark := ((Standing.leads_of_readModifiedKey? read).trans
      (Standing.leads_readMark after)).aligned aligned
    have alignedMarkFlat := ((Standing.leads_of_readModifiedKey? flatRead).trans
      (Standing.leads_readMark afterFlat)).aligned alignedFlat
    obtain ⟨mark, left⟩ := behind.readMark
    obtain ⟨⟨optional, rest⟩, marked⟩ : ∃ marked, readMark after = marked := ⟨_, rfl⟩
    obtain ⟨⟨optionalFlat, restFlat⟩, markedFlat⟩ : ∃ marked, readMark afterFlat = marked := ⟨_, rfl⟩
    rw [marked] at mark left alignedMark
    rw [markedFlat] at mark left alignedMarkFlat
    obtain rfl : optionalFlat = optional := mark
    by_cases colon : ∃ value, rest = .code ':' :: value
    · obtain ⟨value, rfl⟩ := colon
      cases left with
      | space spacing => contradiction
      | drop spacing => contradiction
      | @code _ _ valueFlat _ later =>
        obtain ⟨entry, left⟩ := readEntry_of_colon read marked
        rw [left] at ends
        rw [entry, (readEntry_of_colon flatRead markedFlat).1]
        obtain ⟨valueLines, leftLines⟩ :=
          flattened_readValue later alignedMark.2 alignedMarkFlat.2 ends
        refine ⟨.cons ⟨same, rfl, _, _, ?_, ?_, valueLines, rfl, rfl⟩ .nil, leftLines⟩
        · exact Aligned.of_append_left ((splitValue_append 0 none [] value).symm ▸ alignedMark.2)
        · exact Aligned.of_append_left
            ((splitValue_append 0 none [] valueFlat).symm ▸ alignedMarkFlat.2)
    · have noColon : ∀ value, rest ≠ .code ':' :: value := fun value same => colon ⟨value, same⟩
      have noColonFlat : ∀ value, restFlat ≠ .code ':' :: value := by
        rintro value rfl
        cases left with
        | code _ _ => exact colon ⟨_, rfl⟩
        | drop _ next => cases next
      obtain ⟨entry, ending⟩ := readEntry_of_noColon read marked noColon
      rw [ending] at ends
      rw [entry, (readEntry_of_noColon flatRead markedFlat noColonFlat).1]
      exact ⟨.nil, (flattened_readValue left alignedMark alignedMarkFlat ends).2⟩

/-- Whether every entry but the last is ended by a semicolon or a comma, none by a line feed. -/
def separated (found : List Piece) : Bool :=
  match _start : found.dropWhile Piece.isSeparator with
  | [] => true
  | piece :: rest =>
    (entryEnd (piece :: rest)).head? != some (.code '\n') &&
      separated (readEntry (piece :: rest)).2
termination_by found.length
decreasing_by
  have entry := readEntry_length (piece :: rest) (by simp)
  have bound := dropSeparators_length found
  rw [_start] at bound
  omega

theorem separated_of_start {piece : Piece} {rest : List Piece}
    (start : found.dropWhile Piece.isSeparator = piece :: rest)
    (separated : separated found = true) :
    (entryEnd (piece :: rest)).head? ≠ some (.code '\n') ∧
      TypedClient.separated (readEntry (piece :: rest)).2 = true := by
  rw [TypedClient.separated] at separated
  split at separated
  · rename_i none
    rw [start] at none
    contradiction
  · rename_i other more same
    rw [start] at same
    obtain ⟨rfl, rfl⟩ := List.cons.inj same
    simpa using separated

/-- Members that no line feed ends are the same on one line. -/
theorem flattened_entriesFrom (flattened : Flattened Piece.isTrivia found flat)
    (aligned : Aligned found) (alignedFlat : Aligned flat)
    (separated : separated found = true) :
    List.Forall₂ (fun left right => FlatMember left.member right.member)
      (entriesFrom found) (entriesFrom flat) := by
  fun_induction entriesFrom found generalizing flat with
  | case1 found empty =>
    have start := flattened.dropSeparators
    rw [empty] at start
    rw [entriesFrom_of_empty (start.nil_iff.mp rfl)]
    exact .nil
  | case2 found piece rest start ih =>
    have lines := flattened.dropSeparators
    have alignedStart := (Standing.leads_dropSeparators found).aligned aligned
    have alignedFlatStart := (Standing.leads_dropSeparators flat).aligned alignedFlat
    rw [start] at lines alignedStart
    obtain ⟨ends, more⟩ := separated_of_start start separated
    obtain ⟨entry, later⟩ := flattened_readEntry lines alignedStart alignedFlatStart ends
    have filled : flat.dropWhile Piece.isSeparator ≠ [] := fun none =>
      List.cons_ne_nil _ _ (lines.nil_iff.mpr none)
    rw [WrittenMember.entriesFrom_of_start filled rfl]
    refine List.rel_append entry (ih later ?_ ?_ more)
    · exact readEntry_aligned alignedStart
    · exact readEntry_aligned alignedFlatStart

end Entries

section Braces

variable {found flat : List Piece} {gap : Piece → Bool} {text body : Text}

theorem trimStart_blank {c : Char} (blank : isBlank c = true) (rest : Text) :
    trimStart (c :: rest) = trimStart rest := by
  rw [trimStart, List.dropWhile_cons_of_pos blank]
  rfl

theorem trimStart_solid {c : Char} (solid : isBlank c = false) (rest : Text) :
    trimStart (c :: rest) = c :: rest := by
  rw [trimStart, List.dropWhile_cons_of_neg (by simp [solid])]

/-- A text that opens with a brace does so on one line. -/
theorem flattened_brace (flattened : Flattened gap found flat)
    (gaps : ∀ piece, gap piece = true → piece.isSpacing = true) (aligned : Aligned found)
    (alignedFlat : Aligned flat) (opens : trimStart (textOf found) = '{' :: text) :
    ∃ inside insideFlat, Flattened gap inside insideFlat ∧ Aligned inside ∧ Aligned insideFlat ∧
      textOf inside = text ∧ trimStart (textOf flat) = '{' :: textOf insideFlat := by
  have noComment {span : Text} {rest : List Piece} (aligned : Aligned (.comment span :: rest)) :
      trimStart (textOf (.comment span :: rest)) ≠ '{' :: text := by
    obtain ⟨tail, rfl⟩ := List.head?_eq_some_iff.mp aligned.1.comment
    rw [textOf_cons, Piece.text, List.cons_append, trimStart_solid rfl]
    simp
  induction flattened with
  | nil => contradiction
  | @code c rest restFlat solid later ih =>
    rw [textOf_cons, Piece.text, List.singleton_append, trimStart_solid solid] at opens
    obtain ⟨rfl, same⟩ := List.cons.inj opens
    refine ⟨rest, restFlat, later, aligned.2, alignedFlat.2, same, ?_⟩
    rw [textOf_cons, Piece.text, List.singleton_append, trimStart_solid solid]
  | @quoted span rest _ closed later ih =>
    cases span with
    | nil => contradiction
    | cons quote tail =>
      rw [Piece.isClosedSpan, Bool.and_eq_true] at closed
      rw [textOf_cons, Piece.text, List.cons_append,
        trimStart_solid (solid_of_isQuote closed.1)] at opens
      obtain ⟨rfl, _⟩ := List.cons.inj opens
      exact absurd closed.1 (by decide)
  | @space piece rest restFlat spacing leaves alone later ih =>
    have blank := gaps piece spacing
    cases piece with
    | quoted span => contradiction
    | comment span => exact absurd opens (noComment aligned)
    | code c =>
      rw [textOf_cons, Piece.text, List.singleton_append, trimStart_blank blank] at opens
      obtain ⟨inside, insideFlat, same⟩ := ih aligned.2 alignedFlat.2 opens
      rw [textOf_cons, Piece.text, List.singleton_append, trimStart_blank rfl]
      exact ⟨inside, insideFlat, same⟩
  | @drop piece rest restFlat spacing next later ih =>
    have blank := gaps piece spacing
    cases piece with
    | quoted span => contradiction
    | comment span => exact absurd opens (noComment aligned)
    | code c =>
      rw [textOf_cons, Piece.text, List.singleton_append, trimStart_blank blank] at opens
      exact ih aligned.2 alignedFlat opens

theorem flattened_allBlank (flattened : Flattened gap found flat)
    (blank : allBlank (textOf found) = true) : allBlank (textOf flat) = true := by
  induction flattened with
  | nil => rfl
  | code solid later ih =>
    rw [textOf_cons, allBlank, List.all_append, Bool.and_eq_true] at blank ⊢
    exact ⟨blank.1, ih blank.2⟩
  | @quoted span _ _ closed later ih =>
    rw [textOf_cons, allBlank, List.all_append, Bool.and_eq_true] at blank
    cases span with
    | nil => contradiction
    | cons quote tail =>
      rw [Piece.isClosedSpan, Bool.and_eq_true] at closed
      have solid := solid_of_isQuote closed.1
      simp [Piece.text, solid] at blank
  | space _ _ _ _ ih =>
    rw [textOf_cons, allBlank, List.all_append, Bool.and_eq_true] at blank ⊢
    exact ⟨rfl, ih blank.2⟩
  | drop _ _ _ ih =>
    rw [textOf_cons, allBlank, List.all_append, Bool.and_eq_true] at blank
    exact ih blank.2

/-- A literal in braces is one on one line, and its inside is put on one line. -/
theorem flattened_braced? (flattened : Flattened gap found flat)
    (gaps : ∀ piece, gap piece = true → piece.isSpacing = true) (aligned : Aligned found)
    (alignedFlat : Aligned flat) (literal : braced? (textOf found) = some body) :
    ∃ bodyFlat, braced? (textOf flat) = some bodyFlat ∧
      Flattened gap (pieces body) (pieces bodyFlat) := by
  unfold braced? at literal
  split at literal
  · rename_i rest opens
    obtain ⟨inside, insideFlat, lines, alignedInside, alignedInsideFlat, rfl, flatOpens⟩ :=
      flattened_brace flattened gaps aligned alignedFlat opens
    rw [pieces_textOf alignedInside] at literal
    have opens : isBlank '{' = false := rfl
    have closes : isBlank '}' = false := rfl
    rcases lines.splitClose opens closes gaps 0 with ⟨none, _⟩ |
      ⟨inner, after, innerFlat, afterFlat, split, flatSplit, within, behind⟩
    · rw [none] at literal
      contradiction
    · rw [split] at literal
      dsimp only at literal
      split at literal
      · rename_i blank
        cases literal
        have alignedInner : Aligned inner :=
          Aligned.of_append_left (splitClose_append split ▸ alignedInside)
        have alignedInnerFlat : Aligned innerFlat :=
          Aligned.of_append_left (splitClose_append flatSplit ▸ alignedInsideFlat)
        refine ⟨textOf innerFlat, ?_, ?_⟩
        · rw [braced?, flatOpens]
          change closedAlone? (textOf insideFlat) = some (textOf innerFlat)
          rw [closedAlone?, pieces_textOf alignedInsideFlat, flatSplit]
          exact if_pos (flattened_allBlank behind blank)
        · rwa [pieces_textOf alignedInner, pieces_textOf alignedInnerFlat]
      · contradiction
  · contradiction

theorem FlatMember.block {member flat : Member} (lines : FlatMember member flat)
    (literal : member.block? = some body) :
    ∃ bodyFlat, flat.block? = some bodyFlat ∧
      Flattened Piece.isTrivia (pieces body) (pieces bodyFlat) := by
  obtain ⟨found, line, aligned, alignedLine, flattened, value, flatValue⟩ := lines.value
  unfold Member.block? at literal ⊢
  rw [value, braced?_trim] at literal
  rw [flatValue, braced?_trim]
  exact flattened_braced? flattened Piece.isSpacing_of_isTrivia aligned alignedLine literal

end Braces

section Structure

/-- Whether two bodies have members with the same names and optional marks in the same order, and
whether the literals among their values do, down to a depth. -/
def SameStructure : Nat → Text → Text → Prop
  | 0, _, _ => True
  | depth + 1, body, other =>
    List.Forall₂ (fun left right => right.name = left.name ∧ right.optional = left.optional ∧
      ∀ inside ∈ left.block?, ∃ otherInside ∈ right.block?, SameStructure depth inside otherInside)
      (members body) (members other)

instance decidableSameStructure :
    (depth : Nat) → (body other : Text) → Decidable (SameStructure depth body other)
  | 0, _, _ => .isTrue trivial
  | depth + 1, body, other =>
    have := decidableSameStructure depth
    inferInstanceAs (Decidable (List.Forall₂ (fun left right =>
      right.name = left.name ∧ right.optional = left.optional ∧
        ∀ inside ∈ left.block?, ∃ otherInside ∈ right.block?, SameStructure depth inside otherInside)
      (members body) (members other)))

/-- Whether a name is the same on one line. -/
def KeepsName (name : Text) : Prop :=
  collapseBlanks name = name ∧ (name.head? = some '[' → stripComments name = name)

instance (name : Text) : Decidable (KeepsName name) :=
  inferInstanceAs (Decidable (_ ∧ (_ → _)))

/-- Whether a body keeps its structure on one line, down to a depth: the blanks in its code are ASCII
ones, no line feed ends a member, and no name is changed. -/
def Durable : Nat → Text → Prop
  | 0, _ => True
  | depth + 1, body =>
    (∀ piece ∈ pieces body, piece.isSpacing = true → piece.isTrivia = true) ∧
      separated (pieces body) = true ∧
      ∀ member ∈ members body, KeepsName member.name ∧
        ∀ inside ∈ member.block?, Durable depth inside

instance decidableDurable : (depth : Nat) → (body : Text) → Decidable (Durable depth body)
  | 0, _ => .isTrue trivial
  | depth + 1, body =>
    have := decidableDurable depth
    inferInstanceAs (Decidable ((∀ piece ∈ pieces body, _ → _) ∧ _ ∧
      ∀ member ∈ members body, _ ∧ ∀ inside ∈ member.block?, Durable depth inside))

theorem FlatName.eq {name flat : Text} (flattened : FlatName name flat) (kept : KeepsName name) :
    flat = name := by
  rcases flattened with rfl | ⟨index, rfl⟩
  · exact kept.1
  · rw [kept.2 index, kept.1]

/-- A body keeps its structure on one line. -/
theorem sameStructure_of_flattened (depth : Nat) {body other : Text}
    (flattened : Flattened Piece.isTrivia (pieces body) (pieces other))
    (durable : Durable depth body) : SameStructure depth body other := by
  induction depth generalizing body other with
  | zero => trivial
  | succ depth ih =>
    obtain ⟨_, ends, kept⟩ := durable
    have lines := flattened_entriesFrom flattened (aligned_pieces body) (aligned_pieces other) ends
    have paired : List.Forall₂ FlatMember (members body) (members other) :=
      List.forall₂_map_left_iff.mpr (List.forall₂_map_right_iff.mpr lines)
    refine ((List.forall₂_and_left _ _).mpr ⟨kept, paired⟩).imp fun member flat same => ?_
    obtain ⟨⟨kept, inner⟩, line⟩ := same
    refine ⟨line.name.eq kept, line.optional, fun inside literal => ?_⟩
    obtain ⟨flatInside, flatLiteral, within⟩ := line.block literal
    exact ⟨flatInside, flatLiteral, ih within (inner inside literal)⟩

end Structure

end TypedClient
