import Mathlib.Data.List.Forall2
import TypedClient.Proofs.TypeLiteral.LeadingComments
import TypedClient.Proofs.TypeLiteral.Written

/-!
Members of a body with comments. Main statement: where comments stand inside brackets, or in front of
a member behind the separator of the one before it, a body has the same members with and without its
comments.
-/

namespace TypedClient

open Text

section Values

variable {pair : Option OpenPair} {ready : Bool} {angles : Nat} {before bare : Text}
  {found : List Piece}

/-- A reader of values that has come to the same place with and without comments: outside all
brackets it sees the same last character, and no comment can come. -/
structure InStep (pair : Option OpenPair) (ready : Bool) (angles : Nat) (before bare : Text)
    (found : List Piece) : Prop where
  outside : pair = none → angles = 0 →
    (before.dropWhile isBlank).head? = (bare.dropWhile isBlank).head? ∧ ready = false
  arrow : found.head? = some (.code '>') → (before.head? = some '=' ↔ bare.head? = some '=')
  pair : ∀ outer ∈ pair, closing? outer.opening = some outer.closing

theorem endsLine_eq (before : Text) (after : List Piece) :
    endsLine before after = ((before.dropWhile isBlank).head?.any (!asksForMore ·) &&
      opensWithMember (textOf (skipTrivia after))) := by
  unfold endsLine
  split
  · rename_i none
    rw [none]
    rfl
  · rename_i c rest some
    rw [some]
    rfl

theorem InStep.endsValue (inStep : InStep none ready angles before bare found) {c : Char}
    {rest : List Piece} (calm : angles = 0 → c = '\n' → Calm rest) :
    endsValue angles before c rest = endsValue angles bare c (withoutComments rest) := by
  unfold TypedClient.endsValue
  by_cases outer : angles = 0
  · by_cases line : c = '\n'
    · have trivia := (calm outer line).skipTrivia
      rw [endsLine_eq, endsLine_eq, (inStep.outside rfl outer).1, skipTrivia_withoutComments,
        trivia.opensWithMember]
    · rw [beq_false_of_ne line, Bool.false_and, Bool.false_and]
  · rw [beq_false_of_ne outer, Bool.false_and, Bool.false_and]

theorem InStep.nextAngles {c : Char} {rest : List Piece}
    (inStep : InStep pair ready angles before bare (.code c :: rest)) :
    nextAngles angles before c = nextAngles angles bare c := by
  unfold TypedClient.nextAngles
  by_cases closes : c = '>'
  · subst closes
    have same := inStep.arrow rfl
    simp only [same]
  · simp [closes]

theorem closing?_next {outer inner : OpenPair} {c : Char}
    (opened : closing? outer.opening = some outer.closing) (next : outer.next c = some inner) :
    closing? inner.opening = some inner.closing := by
  unfold OpenPair.next at next
  split at next
  · cases next
    exact opened
  · split at next
    · split at next
      · contradiction
      · cases next
        exact opened
    · cases next
      exact opened

theorem closing?_start {outer : OpenPair} {c : Char} (start : OpenPair.start? c = some outer) :
    closing? outer.opening = some outer.closing := by
  obtain ⟨closing, opens, rfl⟩ := Option.map_eq_some_iff.mp start
  exact opens

/-- What closes a pair is no blank. -/
theorem solid_of_next {outer : OpenPair} {c : Char}
    (opened : closing? outer.opening = some outer.closing) (closed : outer.next c = none) :
    isBlank c = false := by
  unfold OpenPair.next at closed
  split at closed
  · contradiction
  · split at closed
    · rename_i same
      rw [same]
      unfold closing? at opened
      split at opened
      · rw [← Option.some.inj opened]
        rfl
      · rw [← Option.some.inj opened]
        rfl
      · rw [← Option.some.inj opened]
        rfl
      · contradiction
    · contradiction

theorem next_space {outer : OpenPair} (opened : closing? outer.opening = some outer.closing) :
    outer.next ' ' = some outer := by
  have other : ' ' ≠ outer.opening ∧ ' ' ≠ outer.closing := by
    unfold closing? at opened
    split at opened
    · rename_i same
      rw [same, ← Option.some.inj opened]
      decide
    · rename_i same
      rw [same, ← Option.some.inj opened]
      decide
    · rename_i same
      rw [same, ← Option.some.inj opened]
      decide
    · contradiction
  rw [OpenPair.next, if_neg other.1, if_neg other.2]

theorem head?_dropWhile_append (run : Text)
    (same : (before.dropWhile isBlank).head? = (bare.dropWhile isBlank).head?) :
    ((run ++ before).dropWhile isBlank).head? = ((run ++ bare).dropWhile isBlank).head? := by
  rw [List.dropWhile_append, List.dropWhile_append]
  split
  · exact same
  · rename_i filled
    have some : run.dropWhile isBlank ≠ [] := by simpa using filled
    rw [head?_append_of_ne_nil some, head?_append_of_ne_nil some]

/-- Between a comment and a closing angle bracket behind it there is no arrow. The comment is a
block, so that a space stands there where it is taken out. -/
theorem not_arrow_of_comment (before : Text) {span : Text} {rest : List Piece}
    (aligned : Aligned (.comment span :: rest)) (next : rest.head? = some (.code '>')) :
    (span.reverse ++ before).head? ≠ some '=' ∧ (Piece.comment span).uncommented = [.code ' '] := by
  obtain ⟨rest, rfl⟩ := List.head?_eq_some_iff.mp next
  rcases aligned.1.comment_cases with ⟨line, _, _, stops⟩ | ⟨block, rfl, closed⟩
  · contradiction
  · refine ⟨?_, rfl⟩
    have slash := Piece.getLast?_of_endsBlock (closed nofun)
    rw [head?_append_of_ne_nil (by simp), List.head?_reverse, List.getLast?_cons,
      List.getLast?_cons, slash]
    decide

/-- What ends a value, if it ends, and what stands behind it. -/
def EndsCalm (left : List Piece) : Prop :=
  left = [] ∨ ∃ c rest, left = .code c :: rest ∧ commentsLead none true rest = true

theorem splitValue_inside (angles : Nat) (outer : OpenPair) (before : Text) (c : Char)
    (rest : List Piece) :
    splitValue angles (some outer) before (.code c :: rest) =
      (.code c :: (splitValue angles (outer.next c) (c :: before) rest).1,
        (splitValue angles (outer.next c) (c :: before) rest).2) := rfl

theorem splitValue_outside (angles : Nat) (before : Text) (c : Char) (rest : List Piece) :
    splitValue angles none before (.code c :: rest) =
      if endsValue angles before c rest then ([], .code c :: rest)
      else (.code c :: (splitValue (nextAngles angles before c) (OpenPair.start? c) (c :: before)
          rest).1,
        (splitValue (nextAngles angles before c) (OpenPair.start? c) (c :: before) rest).2) := rfl

theorem splitValue_span (angles : Nat) (pair : Option OpenPair) (before : Text) {piece : Piece}
    (span : Text) (other : piece = .quoted span ∨ piece = .comment span) (rest : List Piece) :
    splitValue angles pair before (piece :: rest) =
      (piece :: (splitValue angles pair (span.reverse ++ before) rest).1,
        (splitValue angles pair (span.reverse ++ before) rest).2) := by
  rcases other with rfl | rfl <;> rfl

/-- A space that a comment leaves behind changes nothing where no value can end. -/
theorem splitValue_space (covered : ¬ (pair = none ∧ angles = 0))
    (opened : ∀ outer ∈ pair, closing? outer.opening = some outer.closing) (before : Text)
    (rest : List Piece) :
    splitValue angles pair before (.code ' ' :: rest) =
      (.code ' ' :: (splitValue angles pair (' ' :: before) rest).1,
        (splitValue angles pair (' ' :: before) rest).2) := by
  cases pair with
  | some outer => rw [splitValue_inside, next_space (opened outer rfl)]
  | none =>
    have inside : angles ≠ 0 := fun none => covered ⟨rfl, none⟩
    have goesOn : ¬ endsValue angles before ' ' rest = true := by simp [endsValue]
    rw [splitValue_outside, if_neg goesOn]
    rfl

theorem ends_of_endsValue {c : Char} {rest : List Piece}
    (ends : endsValue angles before c rest = true) :
    angles = 0 ∧ (c = ';' ∨ c = ',' ∨ c = '\n') := by
  simp only [endsValue, Bool.and_eq_true, Bool.or_eq_true, beq_iff_eq] at ends
  exact ⟨ends.1, ends.2.elim (·.elim .inl fun comma => .inr (.inl comma))
    fun line => .inr (.inr line.1)⟩

/-- Outside all brackets the reader stays in step as long as a value goes on. -/
theorem InStep.outside_code {c : Char} {rest : List Piece}
    (inStep : InStep none ready angles before bare (.code c :: rest))
    (goesOn : ¬ TypedClient.endsValue angles before c rest = true) :
    InStep (OpenPair.start? c) (c == ';' || c == ',' || ready && isAsciiBlank c)
      (TypedClient.nextAngles angles before c) (c :: before) (c :: bare) rest := by
  refine ⟨fun _ outer => ?_, fun _ => Iff.rfl, fun inner start => closing?_start start⟩
  cases blank : isBlank c with
  | true =>
    have plain := isMark_of_isBlank blank
    simp only [isMark, Bool.or_eq_false_iff] at plain
    have stays : TypedClient.nextAngles angles before c = angles := by
      unfold TypedClient.nextAngles
      rw [if_neg, if_neg]
      · rintro rfl
        contradiction
      · rintro rfl
        contradiction
    obtain ⟨same, closed⟩ := inStep.outside rfl (stays ▸ outer)
    rw [List.dropWhile_cons_of_pos blank, List.dropWhile_cons_of_pos blank, plain.1.2, plain.2,
      closed]
    exact ⟨same, rfl⟩
  | false =>
    have notSeparator : c ≠ ';' ∧ c ≠ ',' := by
      constructor
      · rintro rfl
        have level : angles = 0 := outer
        exact goesOn (by simp [TypedClient.endsValue, level])
      · rintro rfl
        have level : angles = 0 := outer
        exact goesOn (by simp [TypedClient.endsValue, level])
    have ascii : isAsciiBlank c = false := by
      cases spaced : isAsciiBlank c with
      | false => rfl
      | true =>
        rw [isBlank_of_isAsciiBlank spaced] at blank
        contradiction
    rw [List.dropWhile_cons_of_neg (by simp [blank]), List.dropWhile_cons_of_neg (by simp [blank]),
      beq_false_of_ne notSeparator.1, beq_false_of_ne notSeparator.2, ascii, Bool.and_false]
    exact ⟨rfl, rfl⟩

/-- What closes a pair is no blank, so that the same character is seen last behind it. -/
theorem InStep.inside_code {outer : OpenPair} {c : Char} {rest : List Piece}
    (inStep : InStep (some outer) ready angles before bare (.code c :: rest)) :
    InStep (outer.next c) false angles (c :: before) (c :: bare) rest := by
  have opened := inStep.pair outer rfl
  refine ⟨fun closed _ => ⟨?_, rfl⟩, fun _ => Iff.rfl, fun inner next => closing?_next opened next⟩
  have solid := solid_of_next opened closed
  rw [List.dropWhile_cons_of_neg (by simp [solid]), List.dropWhile_cons_of_neg (by simp [solid])]
  rfl

theorem InStep.behind_quoted {span : Text} {rest : List Piece}
    (inStep : InStep pair ready angles before bare (.quoted span :: rest)) (filled : span ≠ []) :
    InStep pair false angles (span.reverse ++ before) (span.reverse ++ bare) rest := by
  have turned : span.reverse ≠ [] := by simpa using filled
  refine ⟨fun none outer => ⟨?_, rfl⟩, fun _ => ?_, inStep.pair⟩
  · exact head?_dropWhile_append _ (inStep.outside none outer).1
  · rw [head?_append_of_ne_nil turned, head?_append_of_ne_nil turned]

/-- Where no value can end, a comment puts nothing out of step: neither a block, which leaves a space
behind, nor a comment that leaves nothing, since no angle bracket can follow that one. -/
theorem InStep.behind_comment {span : Text} {rest : List Piece}
    (inStep : InStep pair ready angles before bare (.comment span :: rest))
    (aligned : Aligned (.comment span :: rest)) (covered : ¬ (pair = none ∧ angles = 0)) :
    InStep pair ready angles (span.reverse ++ before) (' ' :: bare) rest ∧
      ((Piece.comment span).uncommented = [] →
        InStep pair ready angles (span.reverse ++ before) bare rest) := by
  refine ⟨⟨fun none outer => absurd ⟨none, outer⟩ covered, fun next => ?_, inStep.pair⟩,
    fun left => ⟨fun none outer => absurd ⟨none, outer⟩ covered, fun next => ?_, inStep.pair⟩⟩
  · exact iff_of_false (not_arrow_of_comment before aligned next).1 (by simp)
  · rw [(not_arrow_of_comment before aligned next).2] at left
    contradiction

/-- Values are split off at the same place. -/
theorem splitValue_withoutComments (aligned : Aligned found)
    (lead : commentsLead pair ready found = true)
    (inStep : InStep pair ready angles before bare found) :
    splitValue angles pair bare (withoutComments found) =
        (withoutComments (splitValue angles pair before found).1,
          withoutComments (splitValue angles pair before found).2) ∧
      EndsCalm (splitValue angles pair before found).2 := by
  induction found generalizing pair ready angles before bare with
  | nil => exact ⟨rfl, .inl rfl⟩
  | cons piece rest ih =>
    cases piece with
    | code c =>
      cases pair with
      | some outer =>
        obtain ⟨same, calm⟩ := ih aligned.2 lead inStep.inside_code
        rw [withoutComments_code, splitValue_inside, splitValue_inside, same]
        exact ⟨rfl, calm⟩
      | none =>
        have step : commentsLead (OpenPair.start? c)
            (c == ';' || c == ',' || ready && isAsciiBlank c) rest = true := lead
        have calm : angles = 0 → c = '\n' → Calm rest := by
          rintro outer rfl
          rw [(inStep.outside rfl outer).2] at step
          exact ⟨aligned.2, step⟩
        rw [withoutComments_code, splitValue_outside, splitValue_outside,
          ← inStep.endsValue calm, ← inStep.nextAngles]
        by_cases ends : endsValue angles before c rest = true
        · rw [if_pos ends, if_pos ends]
          have outside : OpenPair.start? c = none := by
            rcases (ends_of_endsValue ends).2 with rfl | rfl | rfl <;> rfl
          rw [outside] at step
          exact ⟨rfl, .inr ⟨c, rest, rfl, commentsLead_ready step⟩⟩
        · rw [if_neg ends, if_neg ends]
          obtain ⟨same, left⟩ := ih aligned.2 step (inStep.outside_code ends)
          rw [same]
          exact ⟨rfl, left⟩
    | quoted span =>
      have filled : span ≠ [] := by
        obtain ⟨quote, tail, rfl, _⟩ := aligned.1.starts_quoted
        simp
      obtain ⟨same, calm⟩ := ih aligned.2 lead (inStep.behind_quoted filled)
      rw [withoutComments_quoted, splitValue_span angles pair bare span (.inl rfl),
        splitValue_span angles pair before span (.inl rfl), same]
      exact ⟨rfl, calm⟩
    | comment span =>
      rw [commentsLead, Bool.and_eq_true] at lead
      have covered : ¬ (pair = none ∧ angles = 0) := by
        rintro ⟨rfl, outer⟩
        rw [(inStep.outside rfl outer).2] at lead
        exact absurd lead.1 Bool.false_ne_true
      obtain ⟨spaced, alone⟩ := inStep.behind_comment aligned covered
      rw [splitValue_span angles pair before span (.inr rfl), withoutComments_cons]
      dsimp only
      rw [withoutComments_cons]
      rcases uncommented_comment span with left | left
      · obtain ⟨same, calm⟩ := ih aligned.2 lead.2 spaced
        rw [left, List.singleton_append, splitValue_space covered inStep.pair, same]
        exact ⟨rfl, calm⟩
      · obtain ⟨same, calm⟩ := ih aligned.2 lead.2 (alone left)
        rw [left, List.nil_append, same]
        exact ⟨rfl, calm⟩

/-- A value is split off at the same place with and without the comments in it. -/
theorem Calm.readValue (calm : Calm found) :
    readValue (withoutComments found) =
        (withoutComments (readValue found).1, withoutComments (readValue found).2) ∧
      EndsCalm (readValue found).2 :=
  splitValue_withoutComments calm.aligned calm.lead
    ⟨fun _ _ => ⟨rfl, rfl⟩, fun _ => Iff.rfl, nofun⟩

end Values

section Entries

/-- Two members that are the same but for comments. Of an index signature the comments in the key
count too. -/
structure Member.Alike (left right : Member) : Prop where
  name : right.name = left.name ∨
    left.name.head? = some '[' ∧ right.name = stripComments left.name
  optional : right.optional = left.optional
  value : collapseType right.value = collapseType left.value
  block : right.block? = left.block?.map stripComments

/-- Pieces in which a comment comes only in brackets, behind a separator or first of all. -/
structure Led (found : List Piece) : Prop where
  aligned : Aligned found
  lead : commentsLead none true found = true

variable {found : List Piece}

theorem EndsCalm.led {left : List Piece} (ends : EndsCalm left) (aligned : Aligned left) :
    Led (left.drop 1) := by
  rcases ends with rfl | ⟨c, rest, rfl, lead⟩
  · exact ⟨trivial, rfl⟩
  · exact ⟨aligned.2, lead⟩

/-- The pieces behind a value, with and without comments. -/
theorem Calm.afterValue (calm : Calm found) :
    (TypedClient.readValue (withoutComments found)).2.drop 1 =
        withoutComments ((TypedClient.readValue found).2.drop 1) ∧
      Led ((TypedClient.readValue found).2.drop 1) := by
  obtain ⟨same, ends⟩ := calm.readValue
  have whole := splitValue_append 0 none [] found
  have aligned : Aligned (TypedClient.readValue found).2 :=
    Aligned.of_append_right (whole.symm ▸ calm.aligned)
  refine ⟨?_, ends.led aligned⟩
  rw [same]
  rcases ends with left | ⟨c, rest, left, _⟩
  · rw [left]
    rfl
  · rw [left]
    rfl

theorem Led.dropSeparators (led : Led found) :
    found.dropWhile Piece.isSeparator = [] ∨ Calm (found.dropWhile Piece.isSeparator) := by
  have lead := commentsLead_dropSeparators led.lead
  have aligned : Aligned (found.dropWhile Piece.isSeparator) := by
    obtain ⟨front, whole⟩ := List.dropWhile_suffix Piece.isSeparator (l := found)
    exact Aligned.of_append_right (whole.symm ▸ led.aligned)
  have stops := List.head?_dropWhile_not Piece.isSeparator found
  cases start : found.dropWhile Piece.isSeparator with
  | nil => exact .inl rfl
  | cons piece rest =>
    rw [start] at lead aligned stops
    refine .inr ⟨aligned, ?_⟩
    cases piece with
    | comment span => contradiction
    | quoted span => exact lead
    | code c =>
      have solid : isAsciiBlank c = false := by
        cases blank : isAsciiBlank c with
        | false => rfl
        | true => simp [Piece.isSeparator, blank] at stops
      have step : commentsLead (OpenPair.start? c)
          (c == ';' || c == ',' || true && isAsciiBlank c) rest = true := lead
      rw [solid, Bool.and_false] at step
      exact step

/-- Blanks are all that is left of a text with its comments if they are without. -/
theorem Calm.allBlank (calm : Calm found) :
    allBlank (textOf (withoutComments found)) = allBlank (textOf found) := by
  have empty (text : Text) : Text.allBlank text = (Text.trimStart text).head?.isNone := by
    rw [Bool.eq_iff_iff, Text.allBlank, List.all_eq_true, Option.isNone_iff_eq_none,
      List.head?_eq_none_iff, Text.trimStart, List.dropWhile_eq_nil_iff]
  obtain ⟨start, solid, trimmed, bare⟩ := calm.trimStart
  rw [empty, empty, trimmed, bare, solid.head?_text]

/-- A literal in braces is one with and without comments, and so is its inside. -/
theorem Calm.braced? (calm : Calm found) :
    braced? (textOf (withoutComments found)) = (braced? (textOf found)).map stripComments := by
  obtain ⟨start, solid, trimmed, bare⟩ := calm.trimStart
  unfold TypedClient.braced?
  rw [trimmed, bare]
  cases start with
  | nil => rfl
  | cons piece rest =>
    cases piece with
    | comment span => exact absurd solid not_comment
    | quoted span =>
      obtain ⟨quote, tail, rfl, mark⟩ := solid.aligned.1.starts_quoted
      have other : quote ≠ '{' := by
        rintro rfl
        contradiction
      rw [withoutComments_quoted, textOf_cons, textOf_cons, Piece.text, List.cons_append,
        List.cons_append]
      simp [other]
    | code c =>
      rw [withoutComments_code, textOf_cons, textOf_cons, Piece.text, List.singleton_append,
        List.singleton_append]
      by_cases brace : c = '{'
      · subst brace
        have inside : Aligned rest := solid.aligned.2
        change closedAlone? (textOf (withoutComments rest)) =
          (closedAlone? (textOf rest)).map stripComments
        have bareInside : Aligned (withoutComments rest) := inside.uncommented
        unfold closedAlone?
        rw [pieces_textOf inside, pieces_textOf bareInside,
          splitClose_withoutComments (by decide) (by decide)]
        cases split : splitClose '{' '}' 0 rest with
        | none => rfl
        | some pair =>
          obtain ⟨inner, after⟩ := pair
          have behind := solid.of_splitClose rfl split
          have within : Aligned inner :=
            Aligned.of_append_left (splitClose_append split ▸ inside)
          rw [Option.map_some]
          dsimp only
          rw [behind.allBlank]
          split
          · rw [Option.map_some, stripComments_textOf within]
          · rfl
      · simp [brace]

theorem head?_withoutComments (calm : Calm found) : (withoutComments found).head? = found.head? := by
  cases found with
  | nil => rfl
  | cons piece rest =>
    cases piece with
    | comment span => exact absurd calm Calm.not_comment
    | quoted span => rfl
    | code c => rfl

theorem length_skipTrivia (found : List Piece) :
    (skipTrivia found).length < found.length ↔ found.head?.any Piece.isTrivia = true := by
  cases found with
  | nil => simp [skipTrivia]
  | cons piece rest =>
    have shorter := skipTrivia_length rest
    unfold skipTrivia at shorter ⊢
    rw [List.dropWhile_cons]
    cases trivia : piece.isTrivia with
    | false => simp [trivia]
    | true =>
      simp only [if_true, List.length_cons, List.head?_cons, Option.any_some, trivia, iff_true]
      omega

/-- Key names that are the same but for comments in an index signature. -/
def AlikeName (left right : Text) : Prop :=
  right = left ∨ left.head? = some '[' ∧ right = stripComments left

theorem AlikeName.eq_readonly {left right : Text} (alike : AlikeName left right) :
    right = "readonly" ↔ left = "readonly" := by
  rcases alike with rfl | ⟨index, rfl⟩
  · exact Iff.rfl
  · obtain ⟨inside, rfl⟩ := List.head?_eq_some_iff.mp index
    have free : stripComments ('[' :: inside) = '[' :: stripComments inside :=
      stripComments_append (show ("[" : Text).all Piece.isInert = true from rfl) inside
    rw [free]
    exact iff_of_false nofun nofun

/-- A key is read with and without the comments behind it, or in neither case. -/
def KeyAlike (left right : Option (Text × List Piece)) : Prop :=
  left = none ∧ right = none ∨
    ∃ name bare after, left = some (name, after) ∧ right = some (bare, withoutComments after) ∧
      AlikeName name bare ∧ Calm after

theorem Calm.readKey? (calm : Calm found) :
    KeyAlike (readKey? found) (readKey? (withoutComments found)) := by
  cases found with
  | nil => exact .inl ⟨rfl, rfl⟩
  | cons piece rest =>
    cases piece with
    | comment span => exact absurd calm not_comment
    | quoted span =>
      rw [withoutComments_quoted, TypedClient.readKey?, TypedClient.readKey?]
      split
      · exact .inl ⟨rfl, rfl⟩
      · cases insideQuotes? span with
        | none => exact .inl ⟨rfl, rfl⟩
        | some inside => exact .inr ⟨_, _, rest, rfl, rfl, .inl rfl, calm.of_quoted⟩
    | code c =>
      rw [withoutComments_code, TypedClient.readKey?, TypedClient.readKey?]
      by_cases index : c = '['
      · subst index
        rw [if_pos rfl, if_pos rfl, splitClose_withoutComments (by decide) (by decide)]
        cases split : splitClose '[' ']' 0 rest with
        | none => exact .inl ⟨rfl, rfl⟩
        | some pair =>
          obtain ⟨inner, after⟩ := pair
          refine .inr ⟨_, _, after, rfl, rfl, .inr ⟨rfl, ?_⟩, calm.of_splitClose rfl split⟩
          have whole : Aligned ((.code '[' :: inner ++ [.code ']']) ++ after) := by
            have aligned := calm.aligned
            rw [splitClose_append split] at aligned
            simpa using aligned
          have key := stripComments_textOf whole.of_append_left
          simp only [withoutComments, List.flatMap_append, List.flatMap_cons, textOf_append] at key
          simpa [Piece.text, Piece.uncommented, withoutComments] using key.symm
      · rw [if_neg index, if_neg index]
        split
        · rename_i key
          have solid := calm.of_code (isMark_of_isKeyChar key)
          obtain ⟨later, dropped, taken⟩ := solid.dropWhile (p := Piece.isKeyPiece)
            (fun _ => isMark_of_isKeyChar) (fun _ => rfl)
          rw [dropped, taken]
          exact .inr ⟨_, _, _, rfl, rfl, .inl rfl, later⟩
        · exact .inl ⟨rfl, rfl⟩

theorem Calm.readModifiedKey? (calm : Calm found) :
    KeyAlike (readModifiedKey? found) (readModifiedKey? (withoutComments found)) := by
  unfold TypedClient.readModifiedKey?
  rcases calm.readKey? with ⟨none, bareNone⟩ | ⟨name, bare, after, read, bareRead, alike, behind⟩
  · rw [none, bareNone]
    exact .inl ⟨rfl, rfl⟩
  · rw [read, bareRead]
    have skips : (TypedClient.skipTrivia (withoutComments after)).length < (withoutComments after).length ↔
        (TypedClient.skipTrivia after).length < after.length := by
      rw [length_skipTrivia, length_skipTrivia, head?_withoutComments behind]
    dsimp only
    rw [if_congr (and_congr alike.eq_readonly skips) rfl rfl, skipTrivia_withoutComments]
    split
    · rcases behind.skipTrivia.readKey? with ⟨none, bareNone⟩ |
        ⟨second, bareSecond, rest, read, bareRead, alikeSecond, later⟩
      · rw [none, bareNone]
        exact .inr ⟨_, _, _, rfl, rfl, alike, behind⟩
      · rw [read, bareRead]
        exact .inr ⟨_, _, _, rfl, rfl, alikeSecond, later⟩
    · exact .inr ⟨_, _, _, rfl, rfl, alike, behind⟩

theorem Calm.readMark (calm : Calm found) :
    readMark (withoutComments found) =
        ((readMark found).1, withoutComments (readMark found).2) ∧ Calm (readMark found).2 := by
  have start := calm.skipTrivia
  unfold TypedClient.readMark
  rw [skipTrivia_withoutComments]
  generalize TypedClient.skipTrivia found = rest at start
  cases rest with
  | nil => exact ⟨rfl, start⟩
  | cons piece rest =>
    cases piece with
    | comment span => exact absurd start not_comment
    | quoted span => exact ⟨rfl, start⟩
    | code c =>
      by_cases mark : c = '?'
      · subst mark
        refine ⟨?_, (start.of_code rfl).skipTrivia⟩
        change (true, TypedClient.skipTrivia (withoutComments rest)) =
          (true, withoutComments (TypedClient.skipTrivia rest))
        rw [skipTrivia_withoutComments]
      · rw [withoutComments_code]
        simp [mark, start]

/-- Values that are read with and without comments are alike. -/
theorem Calm.alike_of_value {name bare : Text} {value : List Piece} (calm : Calm value)
    (alike : AlikeName name bare) (optional : Bool) :
    Member.Alike ⟨name, optional, trim (textOf value)⟩
      ⟨bare, optional, trim (textOf (withoutComments value))⟩ where
  name := alike
  optional := rfl
  value := by
    change collapseType (trim (textOf (withoutComments value))) = collapseType (trim (textOf value))
    rw [collapseType_trim, collapseType_trim, collapseType_withoutComments calm.aligned]
  block := by
    change TypedClient.braced? (trim (textOf (withoutComments value))) =
      (TypedClient.braced? (trim (textOf value))).map stripComments
    rw [braced?_trim, braced?_trim, calm.braced?]

/-- A member, or none, is read from the same pieces with and without comments. -/
theorem Calm.readEntry (calm : Calm found) :
    List.Forall₂ (fun left right => left.member.Alike right.member) (readEntry found).1.toList
        (readEntry (withoutComments found)).1.toList ∧
      (readEntry (withoutComments found)).2 = withoutComments (readEntry found).2 ∧
      Led (readEntry found).2 := by
  unfold TypedClient.readEntry
  rcases calm.readModifiedKey? with ⟨none, bareNone⟩ |
    ⟨name, bare, after, read, bareRead, alike, behind⟩
  · rw [none, bareNone]
    exact ⟨.nil, calm.afterValue⟩
  · obtain ⟨same, rest⟩ := behind.readMark
    rw [read, bareRead]
    dsimp only
    rw [same]
    generalize TypedClient.readMark after = marked at rest
    obtain ⟨optional, left⟩ := marked
    cases left with
    | nil => exact ⟨.nil, rest.afterValue⟩
    | cons piece left =>
      cases piece with
      | comment span => exact absurd rest not_comment
      | quoted span => exact ⟨.nil, rest.afterValue⟩
      | code c =>
        by_cases colon : c = ':'
        · subst colon
          have value := rest.of_code rfl
          have whole := splitValue_append 0 none [] left
          have calmValue : Calm (TypedClient.readValue left).1 :=
            Calm.of_append (whole.symm ▸ value)
          refine ⟨.cons ?_ .nil, value.afterValue⟩
          change Member.Alike ⟨name, optional, trim (textOf (TypedClient.readValue left).1)⟩
            ⟨bare, optional, trim (textOf (TypedClient.readValue (withoutComments left)).1)⟩
          rw [value.readValue.1]
          exact calmValue.alike_of_value alike optional
        · have passed := rest.afterValue
          rw [withoutComments_code] at passed ⊢
          simpa [colon] using passed

theorem entriesFrom_of_empty (empty : found.dropWhile Piece.isSeparator = []) :
    entriesFrom found = [] := by
  rw [entriesFrom]
  split
  · rfl
  · rename_i piece rest filled
    rw [empty] at filled
    contradiction

theorem entriesFrom_withoutComments (led : Led found) :
    List.Forall₂ (fun left right => left.member.Alike right.member) (entriesFrom found)
      (entriesFrom (withoutComments found)) := by
  fun_induction entriesFrom found with
  | case1 found empty =>
    have bare : (withoutComments found).dropWhile Piece.isSeparator = [] := by
      rw [dropWhile_withoutComments (fun _ => rfl) rfl, empty]
      rfl
    rw [entriesFrom_of_empty bare]
    exact .nil
  | case2 found piece rest start ih =>
    have calm : Calm (piece :: rest) := by
      have led := led.dropSeparators
      rw [start] at led
      exact led.resolve_left nofun
    have filled : withoutComments (piece :: rest) ≠ [] := by
      cases piece with
      | comment span => exact absurd calm Calm.not_comment
      | quoted span => exact nofun
      | code c => exact nofun
    have bare : (withoutComments found).dropWhile Piece.isSeparator =
        withoutComments (piece :: rest) := by
      rw [dropWhile_withoutComments (fun _ => rfl) rfl, start]
    obtain ⟨entry, left, later⟩ := calm.readEntry
    rw [WrittenMember.entriesFrom_of_start filled bare, left]
    exact List.rel_append entry (ih later)

end Entries

/-- Whether the comments of a body stand inside brackets, or in front of a member behind the
separator of the one before it. -/
def CommentsLead (body : Text) : Prop := commentsLead none true (pieces body) = true

instance (body : Text) : Decidable (CommentsLead body) :=
  inferInstanceAs (Decidable (commentsLead none true (pieces body) = true))

/-- A body whose comments lead has the same members in the same order without them: keys, optional
marks, values on a single line and the insides of literals in braces. -/
theorem members_stripComments {body : Text} (lead : CommentsLead body) :
    List.Forall₂ Member.Alike (members body) (members (stripComments body)) := by
  have alike := entriesFrom_withoutComments ⟨aligned_pieces body, lead⟩
  rw [members, members, entries, entries, pieces_stripComments, List.forall₂_map_left_iff,
    List.forall₂_map_right_iff]
  exact alike

/-- Comments in front of members and inside their values and keys. -/
def documented : Text :=
  "\n  /** a: b; */ // c: d,\n  \"x-id\"?: \x7b /* e */ f: g; // h\n \x7d, // i\n [k: /* j */ l]: m"

def documentedMembers : List Member :=
  [⟨"x-id", true, "\x7b /* e */ f: g; // h\n \x7d"⟩, ⟨"[k: /* j */ l]", false, "m"⟩]

theorem documented_members :
    CommentsLead documented ∧ members documented = documentedMembers ∧
      List.Forall₂ Member.Alike documentedMembers (members (stripComments documented)) := by
  have lead : CommentsLead documented := by decide +kernel
  have found : members documented = documentedMembers := by decide +kernel
  exact ⟨lead, found, found ▸ members_stripComments lead⟩

/-- Comments behind values, one of them at the end of a line. -/
def noted : Text := "a: \x7b b: string \x7d /* c */, d: e // f,\n  g: h"

/-- A comment behind a literal hides that it is one, and a comment behind a value that ends in
punctuation hides the member on the next line. -/
theorem noted_members :
    (members noted).map (fun member => (member.name, member.block?)) =
        ([("a", none), ("d", none)] : List (Text × Option Text)) ∧
      (members (stripComments noted)).map (fun member => (member.name, member.block?)) =
        ([("a", some " b: string "), ("d", none), ("g", none)] : List (Text × Option Text)) := by
  decide +kernel

end TypedClient
