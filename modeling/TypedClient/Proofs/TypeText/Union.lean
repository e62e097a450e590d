import TypedClient.Proofs.Schema.Literals
import TypedClient.Proofs.TypeLiteral.Written
import TypedClient.TypeText.Union

/-!
Unions of string literals. Main statement: a type text with closed spans is one exactly if bars, a
literal, and bars and literals in turn are all that stands in it besides blanks and comments.
-/

namespace TypedClient

open Text

/-- The pieces of a text without its blanks and comments. -/
def significant (text : Text) : List Piece := (pieces text).filter fun piece => !piece.isTrivia

/-- Whether a span is a string literal and no template. -/
def isStringSpan (span : Text) : Bool := span.head? == some '"' || span.head? == some '\''

/-- What stands between the first and the last character of a span. -/
def insideSpan (span : Text) : Text := span.tail.dropLast

def bar : Piece := .code '|'

/-- Spans with a bar in front of each. -/
def barred (spans : List Text) : List Piece := spans.flatMap fun span => [bar, .quoted span]

/-- Any bars, a literal, and then bars and literals in turn, with the texts of the literals. -/
def IsUnion (found : List Piece) (values : List Text) : Prop :=
  ∃ bars first more, found = List.replicate bars bar ++ .quoted first :: barred more ∧
    (∀ span ∈ first :: more, isStringSpan span = true) ∧ values = (first :: more).map insideSpan

/-- What may stand from a place of a union on. -/
def UnionPlace.Continues : UnionPlace → List Piece → List Text → Prop
  | opening, found, values => IsUnion found values
  | afterBar, found, values =>
    ∃ first more, found = .quoted first :: barred more ∧
      (∀ span ∈ first :: more, isStringSpan span = true) ∧ values = (first :: more).map insideSpan
  | afterLiteral, found, values =>
    ∃ more, found = barred more ∧ (∀ span ∈ more, isStringSpan span = true) ∧
      values = more.map insideSpan

namespace UnionPlace

variable {place : UnionPlace} {rest : List Piece} {values : List Text} {span : Text}

theorem continues_nil :
    place.Continues [] values ↔ place = .afterLiteral ∧ values = [] := by
  cases place with
  | opening =>
    refine iff_of_false ?_ nofun
    rintro ⟨bars, first, more, same, _⟩
    simp at same
  | afterBar =>
    refine iff_of_false ?_ nofun
    rintro ⟨first, more, same, _⟩
    contradiction
  | afterLiteral =>
    constructor
    · rintro ⟨more, same, _, rfl⟩
      cases more with
      | nil => exact ⟨rfl, rfl⟩
      | cons => contradiction
    · rintro ⟨_, rfl⟩
      exact ⟨[], rfl, nofun, rfl⟩

theorem continues_code {c : Char} (other : c ≠ '|') :
    ¬ place.Continues (.code c :: rest) values := by
  have notBar : .code c ≠ bar := fun same => other (Piece.code.inj same)
  cases place with
  | opening =>
    rintro ⟨bars, first, more, same, _⟩
    cases bars with
    | zero => cases same
    | succ bars => exact notBar (List.cons.inj same).1
  | afterBar =>
    rintro ⟨first, more, same, _⟩
    cases same
  | afterLiteral =>
    rintro ⟨more, same, _⟩
    cases more with
    | nil => cases same
    | cons => exact notBar (List.cons.inj same).1

theorem continues_bar_opening :
    opening.Continues (bar :: rest) values ↔ opening.Continues rest values := by
  constructor
  · rintro ⟨bars, first, more, same, strings⟩
    cases bars with
    | zero => cases same
    | succ bars => exact ⟨bars, first, more, (List.cons.inj same).2, strings⟩
  · rintro ⟨bars, first, more, rfl, strings⟩
    exact ⟨bars + 1, first, more, rfl, strings⟩

theorem continues_bar_afterLiteral :
    afterLiteral.Continues (bar :: rest) values ↔ afterBar.Continues rest values := by
  constructor
  · rintro ⟨more, same, strings⟩
    cases more with
    | nil => contradiction
    | cons first more => exact ⟨first, more, (List.cons.inj same).2, strings⟩
  · rintro ⟨first, more, rfl, strings⟩
    exact ⟨first :: more, rfl, strings⟩

theorem continues_bar_afterBar : ¬ afterBar.Continues (bar :: rest) values := by
  rintro ⟨first, more, same, _⟩
  cases same

theorem continues_quoted_afterLiteral : ¬ afterLiteral.Continues (.quoted span :: rest) values := by
  rintro ⟨more, same, _⟩
  cases more <;> cases same

/-- Where a literal is expected, a string stands and the union goes on behind it. -/
theorem continues_quoted (expected : place ≠ .afterLiteral) :
    place.Continues (.quoted span :: rest) values ↔ isStringSpan span = true ∧
      ∃ later, afterLiteral.Continues rest later ∧ values = insideSpan span :: later := by
  have literal : afterBar.Continues (.quoted span :: rest) values ↔ isStringSpan span = true ∧
      ∃ later, afterLiteral.Continues rest later ∧ values = insideSpan span :: later := by
    constructor
    · rintro ⟨first, more, same, strings, rfl⟩
      cases same
      rw [List.forall_mem_cons] at strings
      exact ⟨strings.1, _, ⟨more, rfl, strings.2, rfl⟩, rfl⟩
    · rintro ⟨string, _, ⟨more, rfl, strings, rfl⟩, rfl⟩
      exact ⟨span, more, rfl, List.forall_mem_cons.mpr ⟨string, strings⟩, rfl⟩
  cases place with
  | afterLiteral => contradiction
  | afterBar => exact literal
  | opening =>
    rw [← literal]
    constructor
    · rintro ⟨bars, first, more, same, strings⟩
      cases bars with
      | zero => exact ⟨first, more, same, strings⟩
      | succ bars => cases same
    · rintro ⟨first, more, same, strings⟩
      exact ⟨0, first, more, same, strings⟩

end UnionPlace

section Reading

variable {found : List Piece} {values : List Text} {span : Text}

theorem readUnion_code (place : UnionPlace) (c : Char) (rest : List Piece) :
    readUnion place (.code c :: rest) =
      if isAsciiBlank c then readUnion place rest
      else if c = '|' then
        match place with
        | .opening => readUnion .opening rest
        | .afterLiteral => readUnion .afterBar rest
        | .afterBar => .ok none
      else .ok none := rfl

/-- Blanks and comments make no difference. -/
theorem readUnion_filter (place : UnionPlace) (found : List Piece) :
    readUnion place (found.filter fun piece => !piece.isTrivia) = readUnion place found := by
  induction found generalizing place with
  | nil => rfl
  | cons piece rest ih =>
    cases piece with
    | comment span => exact ih place
    | quoted span =>
      rw [List.filter_cons_of_pos rfl, readUnion, readUnion, ih]
    | code c =>
      cases blank : isAsciiBlank c with
      | true =>
        rw [List.filter_cons_of_neg (by simp [Piece.isTrivia, blank]), ih, readUnion_code,
          if_pos blank]
      | false =>
        rw [List.filter_cons_of_pos (by simp [Piece.isTrivia, blank]), readUnion_code,
          readUnion_code, ih, ih, ih]

/-- How a closed span is read: a template is no literal. -/
theorem readUnion_quoted (closed : Piece.isClosedSpan span = true) (place : UnionPlace)
    (rest : List Piece) :
    readUnion place (.quoted span :: rest) =
      if place ≠ .afterLiteral ∧ isStringSpan span = true then
        (readUnion .afterLiteral rest).map fun more => more.map (insideSpan span :: ·)
      else .ok none := by
  obtain ⟨quote, literal, rfl, inside⟩ := Piece.literal_of_isClosedSpan closed
  rw [List.cons_append, Piece.isClosedSpan, Bool.and_eq_true] at closed
  have cut : insideSpan (quote :: literal ++ [quote]) = literal := by simp [insideSpan]
  rw [readUnion, inside, cut]
  have kind : isStringSpan (quote :: literal ++ [quote]) = true ↔ quote ≠ '\x60' := by
    have mark := closed.1
    simp only [Piece.isQuote, Bool.or_eq_true, beq_iff_eq] at mark
    rcases mark with (rfl | rfl) | rfl <;> simp [isStringSpan]
  have stopped : (place = .afterLiteral ∨ (quote :: literal ++ [quote]).head? = some '\x60' ∨
      (quote :: literal ++ [quote]).length < 2) ↔ place = .afterLiteral ∨ quote = '\x60' := by
    have long : ¬ (quote :: literal ++ [quote]).length < 2 := by
      rw [List.length_append, List.length_cons, List.length_singleton]
      omega
    have opens : (quote :: literal ++ [quote]).head? = some quote := rfl
    rw [opens, Option.some_inj, or_iff_left long]
  by_cases stops : place = .afterLiteral ∨ quote = '\x60'
  · rw [if_pos (stopped.mpr stops), if_neg]
    rw [kind]
    exact fun goes => stops.elim goes.1 goes.2
  · rw [if_neg fun found => stops (stopped.mp found), if_pos]
    rw [not_or] at stops
    exact ⟨stops.1, kind.mpr stops.2⟩

/-- From every place on, exactly what may stand there is read. -/
theorem readUnion_iff (solid : ∀ piece ∈ found, piece.isTrivia = false)
    (closed : ∀ span, .quoted span ∈ found → Piece.isClosedSpan span = true) (place : UnionPlace) :
    readUnion place found = .ok (some values) ↔ place.Continues found values := by
  induction found generalizing place values with
  | nil =>
    rw [UnionPlace.continues_nil, readUnion]
    by_cases last : place = .afterLiteral <;> simp [last, eq_comm]
  | cons piece rest ih =>
    have later (place : UnionPlace) (values : List Text) := @ih values
      (fun piece member => solid piece (List.mem_cons_of_mem _ member))
      (fun span member => closed span (List.mem_cons_of_mem _ member)) place
    have nothing : (.ok none : Except CutLiteral (Option (List Text))) ≠ .ok (some values) := by
      simp
    cases piece with
    | comment span => exact absurd (solid _ List.mem_cons_self) (by simp [Piece.isTrivia])
    | code c =>
      have filled : isAsciiBlank c = false := solid _ List.mem_cons_self
      rw [readUnion_code, if_neg (by simp [filled])]
      by_cases stroke : c = '|'
      · subst stroke
        rw [if_pos rfl]
        cases place with
        | opening => exact (later .opening values).trans UnionPlace.continues_bar_opening.symm
        | afterBar => exact iff_of_false nothing UnionPlace.continues_bar_afterBar
        | afterLiteral =>
          exact (later .afterBar values).trans UnionPlace.continues_bar_afterLiteral.symm
      · rw [if_neg stroke]
        exact iff_of_false nothing (UnionPlace.continues_code stroke)
    | quoted span =>
      rw [readUnion_quoted (closed span List.mem_cons_self)]
      by_cases expected : place = .afterLiteral
      · rw [if_neg fun goes => goes.1 expected, expected]
        exact iff_of_false nothing UnionPlace.continues_quoted_afterLiteral
      · rw [UnionPlace.continues_quoted expected]
        by_cases string : isStringSpan span = true
        · rw [if_pos ⟨expected, string⟩]
          simp only [← later, string, true_and]
          cases readUnion .afterLiteral rest with
          | error cut => simp [Except.map]
          | ok more => cases more <;> simp [Except.map, eq_comm]
        · rw [if_neg fun goes => string goes.2]
          exact iff_of_false nothing fun goes => string goes.1

theorem significant_solid (text : Text) : ∀ piece ∈ significant text, piece.isTrivia = false := by
  intro piece member
  simpa using (List.mem_filter.mp member).2

/-- A text with closed spans is a union exactly if its pieces are those of one. -/
theorem unionLiterals_iff {text : Text} (closed : QuotesClosed text) :
    unionLiterals text = .ok (some values) ↔ IsUnion (significant text) values := by
  rw [unionLiterals, ← readUnion_filter]
  exact readUnion_iff (significant_solid text)
    (fun span member => closed span (List.mem_filter.mp member).1) .opening

end Reading

/-- Whether a piece stands in no union: code that is no bar and no blank, or a template. -/
def Piece.isForeign : Piece → Bool
  | code c => !isAsciiBlank c && c != '|'
  | quoted span => !isStringSpan span
  | comment _ => false

theorem not_foreign_of_isUnion {found : List Piece} {values : List Text}
    (union : IsUnion found values) : ∀ piece ∈ found, piece.isForeign = false := by
  obtain ⟨bars, first, more, rfl, strings, _⟩ := union
  rw [List.forall_mem_cons] at strings
  intro piece member
  rcases List.mem_append.mp member with front | behind
  · rw [List.eq_of_mem_replicate front]
    rfl
  · rcases List.mem_cons.mp behind with rfl | later
    · simp [Piece.isForeign, strings.1]
    · obtain ⟨span, listed, inside⟩ := List.mem_flatMap.mp later
      rcases List.mem_cons.mp inside with rfl | inside
      · rfl
      · rw [List.mem_singleton.mp inside]
        simp [Piece.isForeign, strings.2 span listed]

/-- A text with a foreign piece in it is no union. -/
theorem unionLiterals_foreign {text : Text} (closed : QuotesClosed text) {piece : Piece}
    (member : piece ∈ pieces text) (foreign : piece.isForeign = true) :
    unionLiterals text = .ok none := by
  obtain ⟨answer, read⟩ := unionLiterals_of_closed closed
  cases answer with
  | none => exact read
  | some values =>
    have union := (unionLiterals_iff closed).mp read
    have solid : piece.isTrivia = false := by
      cases piece with
      | code c =>
        rw [Piece.isForeign, Bool.and_eq_true, Bool.not_eq_true'] at foreign
        exact foreign.1
      | quoted span => rfl
      | comment span => contradiction
    have kept : piece ∈ significant text := List.mem_filter.mpr ⟨member, by simp [solid]⟩
    rw [not_foreign_of_isUnion union piece kept] at foreign
    contradiction

/-- A string literal as it is written, with blanks and comments around it. -/
structure PaddedLiteral where
  before : Text
  quote : Char
  value : Text
  after : Text
  before_gap : isGap before = true
  after_gap : isGap after = true
  quote_string : quote = '"' ∨ quote = '\''
  value_plain : quote ∉ value ∧ '\\' ∉ value

namespace PaddedLiteral

variable (literal : PaddedLiteral)

def span : Text := literal.quote :: literal.value ++ [literal.quote]

def text : Text := literal.before ++ literal.span ++ literal.after

def pieces : List Piece :=
  TypedClient.pieces literal.before ++ .quoted literal.span :: TypedClient.pieces literal.after

theorem textOf_pieces : textOf literal.pieces = literal.text := by
  simp [pieces, text, TypedClient.textOf_pieces, Piece.text]

theorem isStringSpan_span : isStringSpan literal.span = true := by
  rcases literal.quote_string with mark | mark <;> simp [isStringSpan, span, mark]

theorem insideSpan_span : insideSpan literal.span = literal.value := by
  simp [insideSpan, span]

theorem isClosedSpan_span : Piece.isClosedSpan literal.span = true := by
  have mark : Piece.isQuote literal.quote = true := by
    rcases literal.quote_string with mark | mark <;> rw [mark] <;> rfl
  rw [span, List.cons_append, Piece.isClosedSpan, mark,
    WrittenKey.endsQuoted_of_plain literal.value_plain.1 literal.value_plain.2
      (Piece.ne_backslash_of_isQuote mark)]
  rfl

theorem aligned_append {after : List Piece} (back : Aligned after) :
    Aligned (literal.pieces ++ after) := by
  rw [pieces, List.append_assoc, List.cons_append]
  exact aligned_gap literal.before_gap
    ⟨Piece.endsBefore_of_isClosedSpan literal.isClosedSpan_span _,
      aligned_gap literal.after_gap back⟩

end PaddedLiteral

/-- A union as it is written: gaps with a bar behind each, then literals with bars between them. -/
def writtenUnion (leads : List Text) (literals : List PaddedLiteral) (trail : Text) : Text :=
  leads.flatMap (· ++ ['|']) ++ (join "|" (literals.map PaddedLiteral.text) ++ trail)

section Written

variable {leads : List Text} {first : PaddedLiteral} {more : List PaddedLiteral} {trail : Text}
  {after : List Piece}

theorem endsBefore_bar (next : Option Char) : bar.EndsBefore next := Piece.endsBefore_code rfl nofun

theorem aligned_leads (gaps : ∀ gap ∈ leads, isGap gap = true) (back : Aligned after) :
    Aligned (leads.flatMap (fun gap => pieces gap ++ [bar]) ++ after) := by
  induction leads with
  | nil => exact back
  | cons gap rest ih =>
    rw [List.forall_mem_cons] at gaps
    rw [List.flatMap_cons, List.append_assoc, List.append_assoc]
    exact aligned_gap gaps.1 ⟨endsBefore_bar _, ih gaps.2⟩

theorem aligned_literals (back : Aligned after) :
    Aligned (more.flatMap (fun literal => bar :: literal.pieces) ++ after) := by
  induction more with
  | nil => exact back
  | cons literal rest ih =>
    rw [List.flatMap_cons, List.append_assoc]
    exact ⟨endsBefore_bar _, literal.aligned_append ih⟩

theorem textOf_flatMap {α : Type} {made : α → List Piece} {written : α → Text}
    (each : ∀ item, textOf (made item) = written item) (items : List α) :
    textOf (items.flatMap made) = items.flatMap written := by
  induction items with
  | nil => rfl
  | cons item rest ih => rw [List.flatMap_cons, List.flatMap_cons, textOf_append, each, ih]

theorem pieces_writtenUnion (gaps : ∀ gap ∈ leads, isGap gap = true) :
    pieces (writtenUnion leads (first :: more) trail) =
      leads.flatMap (fun gap => pieces gap ++ [bar]) ++
        (first.pieces ++ (more.flatMap (fun literal => bar :: literal.pieces) ++ pieces trail)) := by
  have behind : Aligned (more.flatMap (fun literal => bar :: literal.pieces) ++ pieces trail) :=
    aligned_literals (aligned_pieces trail)
  rw [← pieces_textOf (aligned_leads gaps (first.aligned_append behind))]
  have lead (gap : Text) : textOf (pieces gap ++ [bar]) = gap ++ ['|'] := by
    simp [textOf_pieces, bar, Piece.text]
  have literal (literal : PaddedLiteral) :
      textOf (bar :: literal.pieces) = '|' :: literal.text := by
    rw [textOf_cons, literal.textOf_pieces]
    rfl
  rw [textOf_append, textOf_flatMap lead, textOf_append, first.textOf_pieces, textOf_append,
    textOf_flatMap literal, textOf_pieces, writtenUnion, List.map_cons, join_cons, List.flatMap_map,
    List.append_assoc]
  rfl

theorem filter_trivia {found : List Piece} (trivia : found.all Piece.isTrivia = true) :
    (found.filter fun piece => !piece.isTrivia) = [] := by
  refine List.filter_eq_nil_iff.mpr fun piece member => ?_
  simp [List.all_eq_true.mp trivia piece member]

theorem filter_gap {gap : Text} (closed : isGap gap = true) :
    ((pieces gap).filter fun piece => !piece.isTrivia) = [] := by
  rw [isGap, Bool.and_eq_true] at closed
  exact filter_trivia closed.1

theorem PaddedLiteral.filter_pieces (literal : PaddedLiteral) :
    (literal.pieces.filter fun piece => !piece.isTrivia) = [.quoted literal.span] := by
  rw [pieces, List.filter_append, filter_gap literal.before_gap, List.filter_cons_of_pos rfl,
    filter_gap literal.after_gap, List.nil_append]

/-- What stands in a written union between its blanks and comments. -/
theorem significant_writtenUnion (gaps : ∀ gap ∈ leads, isGap gap = true)
    (ending : (pieces trail).all Piece.isTrivia = true) :
    significant (writtenUnion leads (first :: more) trail) =
      List.replicate leads.length bar ++
        .quoted first.span :: barred (more.map PaddedLiteral.span) := by
  have lead : (leads.flatMap fun gap => pieces gap ++ [bar]).filter (fun piece => !piece.isTrivia) =
      List.replicate leads.length bar := by
    induction leads with
    | nil => rfl
    | cons gap rest ih =>
      rw [List.forall_mem_cons] at gaps
      rw [List.flatMap_cons, List.filter_append, ih gaps.2, List.filter_append, filter_gap gaps.1]
      rfl
  have behind : (more.flatMap fun literal => bar :: literal.pieces).filter
      (fun piece => !piece.isTrivia) = barred (more.map PaddedLiteral.span) := by
    induction more with
    | nil => rfl
    | cons literal rest ih =>
      rw [List.flatMap_cons, List.filter_append, ih, List.filter_cons_of_pos rfl,
        literal.filter_pieces]
      rfl
  rw [significant, pieces_writtenUnion gaps, List.filter_append, List.filter_append,
    List.filter_append, lead, behind, first.filter_pieces, filter_trivia ending, List.append_nil]
  rfl

/-- The literals of a written union are read back in order. -/
theorem unionLiterals_writtenUnion {literals : List PaddedLiteral} (filled : literals ≠ [])
    (gaps : ∀ gap ∈ leads, isGap gap = true)
    (ending : (pieces trail).all Piece.isTrivia = true) :
    unionLiterals (writtenUnion leads literals trail) =
      .ok (some (literals.map PaddedLiteral.value)) := by
  obtain ⟨first, more, rfl⟩ := List.exists_cons_of_ne_nil filled
  have found : significant (writtenUnion leads (first :: more) trail) = _ :=
    significant_writtenUnion gaps ending
  have closed : QuotesClosed (writtenUnion leads (first :: more) trail) := by
    intro span member
    have kept : .quoted span ∈ significant (writtenUnion leads (first :: more) trail) :=
      List.mem_filter.mpr ⟨member, rfl⟩
    rw [found, List.mem_append, List.mem_cons, barred, List.flatMap_map, List.mem_flatMap] at kept
    rcases kept with front | here | ⟨literal, _, inside⟩
    · cases List.eq_of_mem_replicate front
    · cases here
      exact first.isClosedSpan_span
    · rcases List.mem_cons.mp inside with none | here
      · cases none
      · cases List.mem_singleton.mp here
        exact literal.isClosedSpan_span
  refine (unionLiterals_iff closed).mpr
    ⟨leads.length, first.span, more.map PaddedLiteral.span, found, ?_, ?_⟩
  · rw [← List.map_cons (f := PaddedLiteral.span)]
    exact List.forall_mem_map.mpr fun literal _ => literal.isStringSpan_span
  · simp [PaddedLiteral.insideSpan_span, Function.comp_def]

end Written

/-- The literals of a type text with closed spans are read exactly if it is a union of them, so that
no union with code or a template beside its literals is read, and any written union is. -/
theorem unionLiterals_exact :
    (∀ text, QuotesClosed text → ∃ answer, unionLiterals text = .ok answer ∧
      (∀ values, answer = some values ↔ IsUnion (significant text) values) ∧
      ((∃ piece ∈ pieces text, piece.isForeign = true) → answer = none)) ∧
    ∀ leads literals trail, literals ≠ [] → (∀ gap ∈ leads, isGap gap = true) →
      (pieces trail).all Piece.isTrivia = true →
      unionLiterals (writtenUnion leads literals trail) =
        .ok (some (literals.map PaddedLiteral.value)) := by
  constructor
  · intro text closed
    obtain ⟨answer, read⟩ := unionLiterals_of_closed closed
    refine ⟨answer, read, fun values => ?_, ?_⟩
    · rw [← unionLiterals_iff closed, read, Except.ok.injEq]
    · rintro ⟨piece, member, foreign⟩
      rw [unionLiterals_foreign closed member foreign] at read
      exact (Except.ok.inj read).symm
  · intro leads literals trail filled gaps ending
    exact unionLiterals_writtenUnion filled gaps ending

/-- Two roles in different quotes, a bar inside of a comment and one inside of a literal. -/
def roleLiterals : List PaddedLiteral :=
  [⟨" ", '"', "team|admin", " /* | */ ", by decide +kernel, by decide +kernel, .inl rfl,
      by decide +kernel⟩,
    ⟨"// or\n", '\'', "\"guest\"", "\t", by decide +kernel, by decide +kernel, .inr rfl,
      by decide +kernel⟩]

theorem unionLiterals_roles :
    unionLiterals (writtenUnion ["\n"] roleLiterals "// last") =
        .ok (some ["team|admin".toList, "\"guest\"".toList]) ∧
      unionLiterals "\"guest\" | null" = .ok none := by
  refine ⟨unionLiterals_exact.2 ["\n"] roleLiterals "// last" (List.cons_ne_nil _ _)
    (by decide +kernel) (by decide +kernel), ?_⟩
  have scanned : pieces "\"guest\" | null" =
      .quoted "\"guest\"" :: (" | null" : Text).map .code := by decide +kernel
  have closed : QuotesClosed "\"guest\" | null" := by
    intro span member
    rw [scanned] at member
    obtain rfl : span = "\"guest\"" := by simpa using member
    decide
  obtain ⟨answer, read, _, foreign⟩ := unionLiterals_exact.1 "\"guest\" | null" closed
  rw [read, foreign ⟨.code 'n', by rw [scanned]; decide, rfl⟩]

end TypedClient
