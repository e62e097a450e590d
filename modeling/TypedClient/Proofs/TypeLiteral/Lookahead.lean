import TypedClient.Proofs.TypeLiteral.LeadingComments
import TypedClient.Proofs.TypeLiteral.Written

/-!
How far a reader looks ahead. Whether a line end ends a value is told by the text behind it. Main
statement: where that text has a semicolon of code, what comes behind the semicolon does not count.
-/

namespace TypedClient

open Text

section Lists

variable {α : Type} {p : α → Bool} {front : List α} {last : α}

theorem dropWhile_ne_nil_of_last (ends : front.getLast? = some last) (stops : p last = false) :
    front.dropWhile p ≠ [] := by
  intro none
  have taken := List.dropWhile_eq_nil_iff.mp none last (List.mem_of_getLast? ends)
  rw [stops] at taken
  contradiction

theorem dropWhile_append_of_last (ends : front.getLast? = some last) (stops : p last = false)
    (back : List α) : (front ++ back).dropWhile p = front.dropWhile p ++ back := by
  rw [List.dropWhile_append, if_neg]
  simpa using dropWhile_ne_nil_of_last ends stops

theorem getLast?_dropWhile_of_last (ends : front.getLast? = some last) (stops : p last = false) :
    (front.dropWhile p).getLast? = some last := by
  rw [← ends, ← List.getLast?_append_of_ne_nil (front.takeWhile p)
    (dropWhile_ne_nil_of_last ends stops), List.takeWhile_append_dropWhile]

theorem takeWhile_append_of_last (ends : front.getLast? = some last) (stops : p last = false)
    (back : List α) : (front ++ back).takeWhile p = front.takeWhile p := by
  rw [List.takeWhile_append, if_neg]
  intro whole
  have all := List.all_takeWhile (l := front) (p := p)
  rw [List.takeWhile_prefix p |>.eq_of_length whole, List.all_eq_true] at all
  rw [all last (List.mem_of_getLast? ends)] at stops
  contradiction

end Lists

/-- Aligned pieces the last of which is a semicolon. -/
structure Ended (found : List Piece) : Prop where
  aligned : Aligned found
  last : found.getLast? = some (.code ';')

variable {found : List Piece} {text : Text}

/-- What begins with a character that opens no span and no comment is that character of code. -/
theorem Aligned.eq_code_of_isInert {piece : Piece} {rest : List Piece} {c : Char} {tail : Text}
    (aligned : Aligned (piece :: rest)) (starts : piece.text = c :: tail)
    (inert : Piece.isInert c = true) : piece = .code c := by
  cases piece with
  | code d =>
    cases starts
    rfl
  | quoted span =>
    obtain ⟨quote, more, same, mark⟩ := aligned.1.starts_quoted
    cases starts.symm.trans same
    simp [Piece.isInert, mark] at inert
  | comment span =>
    cases (congrArg List.head? starts).symm.trans aligned.1.comment
    contradiction

namespace Ended

theorem ne_nil (ended : Ended found) : found ≠ [] := by
  rintro rfl
  exact nomatch ended.last

theorem of_append {front back : List Piece} (ended : Ended (front ++ back)) (left : back ≠ []) :
    Ended back := by
  refine ⟨ended.aligned.of_append_right, ?_⟩
  rw [← ended.last, List.getLast?_append_of_ne_nil front left]

theorem of_cons {piece : Piece} {rest : List Piece} (ended : Ended (piece :: rest))
    (other : piece ≠ .code ';') : Ended rest := by
  have whole : Ended ([piece] ++ rest) := ended
  refine whole.of_append ?_
  rintro rfl
  exact other (Option.some.inj ended.last)

theorem getLast?_textOf (ended : Ended found) : (textOf found).getLast? = some ';' := by
  obtain ⟨front, rfl⟩ := List.getLast?_eq_some_iff.mp ended.last
  rw [textOf_append]
  exact List.getLast?_concat

end Ended

/-- The colon behind a key, or another character in its place, is found in front of a semicolon. -/
theorem colonNext_append (last : text.getLast? = some ';') (more : Text) :
    colonNext (text ++ more) = colonNext text := by
  have trimmed : trimStart (text ++ more) = trimStart text ++ more :=
    dropWhile_append_of_last last rfl more
  have still : (trimStart text).getLast? = some ';' := getLast?_dropWhile_of_last last rfl
  unfold colonNext
  rw [trimmed]
  generalize trimStart text = start at still
  cases start with
  | nil => exact nomatch still
  | cons c start =>
    by_cases mark : c = '?'
    · subst mark
      have behind : start.getLast? = some ';' := by
        cases start with
        | nil => exact nomatch still
        | cons d start => rwa [List.getLast?_cons_cons] at still
      have later : trimStart (start ++ more) = trimStart start ++ more :=
        dropWhile_append_of_last behind rfl more
      have filled : trimStart start ≠ [] := dropWhile_ne_nil_of_last behind rfl
      change decide ((trimStart (start ++ more)).head? = some ':') =
        decide ((trimStart start).head? = some ':')
      rw [later, head?_append_of_ne_nil filled]
    · by_cases colon : c = ':'
      · subst colon
        rfl
      · simp [mark, colon]

namespace Ended

/-- The key that opens a text ends in front of the semicolon, or there is none. -/
theorem keyEnd? (ended : Ended found) :
    (∀ more, TypedClient.keyEnd? (textOf found ++ more) = none) ∨
      ∃ after, after.getLast? = some ';' ∧
        ∀ more, TypedClient.keyEnd? (textOf found ++ more) = some (after ++ more) := by
  cases found with
  | nil => exact absurd rfl ended.ne_nil
  | cons piece rest =>
    cases piece with
    | code c =>
      have plain := ended.aligned.1.code.1
      have each (more : Text) : TypedClient.keyEnd? (textOf (.code c :: rest) ++ more) =
          if isKeyChar c then some ((textOf rest ++ more).dropWhile isKeyChar) else none :=
        keyEnd?_of_code plain _
      cases key : isKeyChar c with
      | false => exact .inl fun more => by rw [each, key]; rfl
      | true =>
        have other : Piece.code c ≠ .code ';' := by
          rintro ⟨⟩
          exact absurd key (by decide)
        have last := (ended.of_cons other).getLast?_textOf
        have stops : isKeyChar ';' = false := by decide
        refine .inr ⟨_, getLast?_dropWhile_of_last last stops, fun more => ?_⟩
        rw [each, key, dropWhile_append_of_last last stops]
        rfl
    | quoted span =>
      obtain ⟨quote, tail, rfl, mark⟩ := ended.aligned.1.starts_quoted
      have behind := ended.of_cons (by simp)
      have aligned : Aligned ([] ++ .quoted (quote :: tail) :: rest) := ended.aligned
      have closed := aligned.isClosedSpan_of_follows (behind.aligned.textOf_ne_nil behind.ne_nil)
      rw [Piece.isClosedSpan, Bool.and_eq_true] at closed
      obtain ⟨before, after, cut⟩ := cut?_of_mem
        (List.mem_of_getLast? (Piece.getLast?_of_endsQuoted closed.2))
      have each (more : Text) :
          TypedClient.keyEnd? (textOf (.quoted (quote :: tail) :: rest) ++ more) =
            if quote = '\x60' then none else some (after ++ textOf rest ++ more) := by
        have whole : textOf (.quoted (quote :: tail) :: rest) ++ more =
            quote :: (tail ++ (textOf rest ++ more)) := by
          rw [textOf_cons, Piece.text, List.cons_append, List.cons_append, List.append_assoc]
        rw [whole, keyEnd?_of_quote mark, cut, List.append_assoc]
        rfl
      by_cases template : quote = '\x60'
      · exact .inl fun more => by rw [each, if_pos template]
      · right
        refine ⟨after ++ textOf rest, ?_, fun more => by rw [each, if_neg template]⟩
        rw [List.getLast?_append_of_ne_nil after (behind.aligned.textOf_ne_nil behind.ne_nil)]
        exact behind.getLast?_textOf
    | comment span =>
      have slash := ended.aligned.1.comment
      obtain ⟨tail, rfl⟩ := List.head?_eq_some_iff.mp slash
      exact .inl fun more => rfl

theorem opensWithKey (ended : Ended found) (more : Text) :
    opensWithKey (textOf found ++ more) = TypedClient.opensWithKey (textOf found) := by
  rw [opensWithKey_eq, opensWithKey_eq]
  rcases ended.keyEnd? with none | ⟨after, last, some⟩
  · rw [none, ← List.append_nil (textOf found), none]
  · rw [some, ← List.append_nil (textOf found), some, List.append_nil, Option.any_some,
      Option.any_some, colonNext_append last]

theorem trimStart (ended : Ended found) :
    ∃ start, Ended start ∧ ∀ more, trimStart (textOf found ++ more) = textOf start ++ more := by
  induction found with
  | nil => exact absurd rfl ended.ne_nil
  | cons piece rest ih =>
    obtain ⟨c, tail, starts, _⟩ := ended.aligned.1
    cases blank : isBlank c with
    | true =>
      obtain rfl := ended.aligned.eq_code_of_isInert starts (isInert_of_isBlank blank)
      have other : Piece.code c ≠ .code ';' := by
        rintro ⟨⟩
        contradiction
      obtain ⟨start, still, trimmed⟩ := ih (ended.of_cons other)
      exact ⟨start, still, fun more => (List.dropWhile_cons_of_pos blank).trans (trimmed more)⟩
    | false =>
      refine ⟨piece :: rest, ended, fun more => ?_⟩
      rw [textOf_cons, starts, List.cons_append, List.cons_append]
      exact List.dropWhile_cons_of_neg (by simp [blank])

/-- A word opens pieces whatever follows them, or it does not. -/
theorem isPrefixOf? (ended : Ended found) {word : Text} (keys : word.all isKeyChar = true) :
    (∀ more, word.isPrefixOf? (textOf found ++ more) = none) ∨
      ∃ rest, Ended rest ∧
        ∀ more, word.isPrefixOf? (textOf found ++ more) = some (textOf rest ++ more) := by
  have step : ∀ (c d : Char) (word text : Text), (c :: word).isPrefixOf? (d :: text) =
      if c == d then word.isPrefixOf? text else none := fun _ _ _ _ => rfl
  induction word generalizing found with
  | nil => exact .inr ⟨found, ended, fun more => rfl⟩
  | cons c word ih =>
    rw [List.all_cons, Bool.and_eq_true] at keys
    cases found with
    | nil => exact absurd rfl ended.ne_nil
    | cons piece rest =>
      obtain ⟨d, tail, starts, _⟩ := ended.aligned.1
      have whole (more : Text) : textOf (piece :: rest) ++ more =
          d :: (tail ++ (textOf rest ++ more)) := by
        rw [textOf_cons, starts, List.cons_append, List.cons_append, List.append_assoc]
      by_cases same : c = d
      · subst same
        have inert := (WrittenKey.plain_of_isKeyChar keys.1).1
        obtain rfl := ended.aligned.eq_code_of_isInert starts inert
        cases starts
        have other : Piece.code c ≠ .code ';' := by
          rintro ⟨⟩
          exact absurd keys.1 (by decide)
        rcases ih (ended.of_cons other) keys.2 with none | ⟨left, still, some⟩
        · exact .inl fun more => by
            rw [whole, step, if_pos BEq.rfl]
            exact none more
        · exact .inr ⟨left, still, fun more => by
            rw [whole, step, if_pos BEq.rfl]
            exact some more⟩
      · exact .inl fun more => by rw [whole, step, if_neg (by simp [same])]

/-- Whether a text goes on with a member is settled in front of the semicolon. -/
theorem opensWithMember (ended : Ended found) (more : Text) :
    opensWithMember (textOf found ++ more) = TypedClient.opensWithMember (textOf found) := by
  obtain ⟨start, still, trimmed⟩ := ended.trimStart
  have bare := trimmed []
  rw [List.append_nil, List.append_nil] at bare
  unfold TypedClient.opensWithMember
  dsimp only
  rw [trimmed, bare, still.opensWithKey]
  rcases still.isPrefixOf? (show "readonly".toList.all isKeyChar = true from by decide) with
    none | ⟨rest, behind, some⟩
  · have same := none []
    rw [List.append_nil] at same
    rw [none, same]
  · have same := some []
    rw [List.append_nil, List.append_nil] at same
    rw [some, same]
    cases rest with
    | nil => exact absurd rfl behind.ne_nil
    | cons piece rest =>
      obtain ⟨c, tail, starts, _⟩ := behind.aligned.1
      rw [textOf_cons, starts, List.cons_append, List.cons_append]
      dsimp only
      cases blank : isBlank c with
      | false => rfl
      | true =>
        obtain rfl := behind.aligned.eq_code_of_isInert starts (isInert_of_isBlank blank)
        cases starts
        have other : Piece.code c ≠ .code ';' := by
          rintro ⟨⟩
          contradiction
        obtain ⟨key, left, trimmed⟩ := (behind.of_cons other).trimStart
        have bare := trimmed []
        rw [List.append_nil, List.append_nil] at bare
        rw [List.nil_append, trimmed, bare, left.opensWithKey]

end Ended

end TypedClient
