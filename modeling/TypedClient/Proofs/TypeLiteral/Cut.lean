import TypedClient.Proofs.TypeLiteral.Lookahead
import TypedClient.Proofs.TypeLiteral.Standing

/-!
Bodies cut at a semicolon outside all brackets. Main statement: the members of a body are those in
front of such a semicolon and those behind it.
-/

namespace TypedClient

open Text

/-- Whether a place leads on, through pieces, to a semicolon outside all brackets. -/
def Standing.Closes (place : Standing) (found : List Piece) : Prop :=
  ∃ front, found = front ++ [.code ';'] ∧ (place.behind front).Outside

variable {place : Standing} {piece : Piece} {before : Text} {found rest : List Piece}

namespace Standing.Closes

theorem last (closes : place.Closes found) : found.getLast? = some (.code ';') := by
  obtain ⟨front, rfl, _⟩ := closes
  exact List.getLast?_concat

theorem ended (closes : place.Closes found) (aligned : Aligned found) : Ended found :=
  ⟨aligned, closes.last⟩

theorem outside (closes : place.Closes [piece]) : piece = .code ';' ∧ place.Outside := by
  obtain ⟨front, whole, outside⟩ := closes
  cases front with
  | nil => exact ⟨List.head_eq_of_cons_eq whole, outside⟩
  | cons first front => simp at whole

theorem of_cons (closes : place.Closes (piece :: rest)) (left : rest ≠ []) :
    (place.next piece).Closes rest := by
  obtain ⟨front, whole, outside⟩ := closes
  cases front with
  | nil => exact absurd (List.tail_eq_of_cons_eq whole) left
  | cons first front =>
    obtain ⟨rfl, rfl⟩ := List.cons.inj whole
    exact ⟨front, rfl, outside⟩

theorem of_append {front back : List Piece} (closes : place.Closes (front ++ back))
    (left : back ≠ []) : (place.behind front).Closes back := by
  induction front generalizing place with
  | nil => exact closes
  | cons first front ih =>
    have filled : front ++ back ≠ [] := List.append_ne_nil_of_right_ne_nil front left
    exact ih (of_cons closes filled)

end Standing.Closes

/-- Pieces up to a semicolon outside all brackets. -/
structure Cut (found : List Piece) : Prop where
  aligned : Aligned found
  closes : Standing.outer.Closes found

namespace Cut

theorem ended (cut : Cut found) : Ended found := cut.closes.ended cut.aligned

theorem ne_nil (cut : Cut found) : found ≠ [] := cut.ended.ne_nil

theorem of_leads (cut : Cut found) (leads : Standing.Leads found rest) (left : rest ≠ []) :
    Cut rest := by
  obtain ⟨read, rfl, back⟩ := leads
  exact ⟨cut.aligned.of_append_right, back ▸ cut.closes.of_append left⟩

end Cut

section Values

/-- Whether a value ends is settled in front of the semicolon. -/
theorem Standing.stops_append (aligned : Aligned (piece :: rest))
    (closes : place.Closes (piece :: rest)) (back : List Piece) :
    place.stops before piece (rest ++ back) = place.stops before piece rest := by
  cases piece with
  | quoted span => rfl
  | comment span => rfl
  | code c =>
    have same : c = '\n' → endsLine before (rest ++ back) = endsLine before rest := by
      rintro rfl
      have ended : Ended rest := (closes.ended aligned).of_cons (by simp)
      have trivia : skipTrivia (rest ++ back) = skipTrivia rest ++ back :=
        dropWhile_append_of_last ended.last rfl back
      obtain ⟨front, whole⟩ : skipTrivia rest <:+ rest := List.dropWhile_suffix _
      have still : Ended (skipTrivia rest) :=
        Ended.of_append (whole.symm ▸ ended) (dropWhile_ne_nil_of_last ended.last rfl)
      rw [endsLine_eq, endsLine_eq, trivia, textOf_append, still.opensWithMember]
    rw [Standing.stops, Standing.stops, endsValue, endsValue]
    by_cases line : c = '\n'
    · rw [same line]
    · rw [beq_false_of_ne line, Bool.false_and, Bool.false_and]

/-- A value that is open in front of the semicolon ends there or before. -/
theorem Standing.splitValue_append (aligned : Aligned found) (knows : place.Knows before found)
    (closes : place.Closes found) : ∃ value piece left,
      ∀ back, splitValue place.angles place.pair before (found ++ back) =
        (value, piece :: left ++ back) := by
  induction found generalizing place before with
  | nil => exact absurd rfl (closes.ended aligned).ne_nil
  | cons first more ih =>
    by_cases stops : place.stops before first more = true
    · refine ⟨[], first, more, fun back => ?_⟩
      rw [← stops_append aligned closes back] at stops
      exact splitValue_of_stops stops
    · have filled : more ≠ [] := by
        rintro rfl
        obtain ⟨rfl, none, angles⟩ := closes.outside
        exact stops (by rw [Standing.stops, none, endsValue, angles]; rfl)
      obtain ⟨value, piece, left, same⟩ :=
        ih aligned.2 (Knows.next aligned place before) (closes.of_cons filled)
      refine ⟨first :: value, piece, left, fun back => ?_⟩
      have longer : place.Knows before (first :: (more ++ back)) := knows
      rw [← stops_append aligned closes back] at stops
      rw [List.cons_append, splitValue_of_goesOn longer stops, same]

theorem Cut.readValue (cut : Cut found) : ∃ value piece left, (left = [] ∨ Cut left) ∧
    ∀ back, readValue (found ++ back) = (value, piece :: left ++ back) := by
  obtain ⟨value, piece, left, same⟩ :=
    Standing.splitValue_append cut.aligned (Standing.Knows.start found) cut.closes
  refine ⟨value, piece, left, ?_, same⟩
  have here : TypedClient.readValue (found ++ []) = (value, piece :: left ++ []) := same []
  rw [List.append_nil, List.append_nil] at here
  by_cases done : left = []
  · exact .inl done
  · have leads := Standing.leads_of_readValue cut.aligned (congrArg Prod.snd here)
    exact .inr (cut.of_leads leads done)

end Values

section Entries

/-- A pair that is open in front of the semicolon is closed there. -/
theorem Standing.Closes.splitClose {opening closing : Char} {depth angles : Nat} {equals : Bool}
    (closes : (Standing.mk (some ⟨opening, closing, depth⟩) angles equals).Closes found) :
    ∃ inner after, splitClose opening closing depth found = some (inner, after) := by
  induction found generalizing depth equals with
  | nil => exact nomatch closes.last
  | cons piece rest ih =>
    have filled : rest ≠ [] := by
      rintro rfl
      exact nomatch closes.outside.2.1
    have later := closes.of_cons filled
    cases piece with
    | code c =>
      rw [splitClose_code]
      split
      · exact ⟨[], rest, rfl⟩
      · rename_i inside
        have around : OpenPair.next ⟨opening, closing, depth⟩ c = some ⟨opening, closing,
            if c = opening then depth + 1 else if c = closing then depth - 1 else depth⟩ :=
          OpenPair.next_of_inside inside
        unfold Standing.next at later
        dsimp only at later
        rw [around] at later
        obtain ⟨inner, after, split⟩ := ih later
        exact ⟨.code c :: inner, after, by rw [split]; rfl⟩
    | quoted span =>
      obtain ⟨inner, after, split⟩ := ih later
      exact ⟨.quoted span :: inner, after, by rw [splitClose_quoted, split]; rfl⟩
    | comment span =>
      obtain ⟨inner, after, split⟩ := ih later
      exact ⟨.comment span :: inner, after, by rw [splitClose_comment, split]; rfl⟩

namespace Cut

theorem skipTrivia (cut : Cut found) : Cut (skipTrivia found) ∧
    ∀ back, TypedClient.skipTrivia (found ++ back) = TypedClient.skipTrivia found ++ back := by
  have last := cut.closes.last
  exact ⟨cut.of_leads (Standing.leads_skipTrivia found) (dropWhile_ne_nil_of_last last rfl),
    dropWhile_append_of_last last rfl⟩

/-- A reader of keys finds the same in pieces, and leaves the same of them, whatever follows. -/
def Decided (read : List Piece → Option (Text × List Piece)) (found : List Piece) : Prop :=
  (∀ back, read (found ++ back) = none) ∨
    ∃ name after, Cut after ∧ ∀ back, read (found ++ back) = some (name, after ++ back)

theorem decided_quoted {span : Text} (cut : Cut (.quoted span :: rest)) :
    Decided readKey? (.quoted span :: rest) := by
  have behind : Cut rest := cut.of_leads (.cons rfl (.refl rest))
    (cut.ended.of_cons (by simp)).ne_nil
  have each (back : List Piece) : readKey? (.quoted span :: rest ++ back) =
      if span.head? = some '\x60' then none
      else (insideQuotes? span).map fun inner =>
        (replace "\\'" "'" (replace "\\\"" "\"" inner), rest ++ back) := rfl
  by_cases template : span.head? = some '\x60'
  · exact .inl fun back => by rw [each, if_pos template]
  · cases inside : insideQuotes? span with
    | none => exact .inl fun back => by rw [each, if_neg template, inside]; rfl
    | some inner =>
      exact .inr ⟨_, rest, behind, fun back => by rw [each, if_neg template, inside]; rfl⟩

theorem decided_index (cut : Cut (.code '[' :: rest)) : Decided readKey? (.code '[' :: rest) := by
  have ended : Ended rest := cut.ended.of_cons (by simp)
  obtain ⟨inner, after, split⟩ := (cut.closes.of_cons ended.ne_nil).splitClose
  have read : readKey? (.code '[' :: rest) = some ('[' :: textOf inner ++ [']'], after) := by
    rw [readKey?, if_pos rfl, split]
  have whole := splitClose_append split
  have left : after ≠ [] := by
    rintro rfl
    have last := ended.last
    rw [whole, List.getLast?_concat] at last
    contradiction
  refine .inr ⟨'[' :: textOf inner ++ [']'], after,
    cut.of_leads (Standing.leads_of_readKey? read) left, fun back => ?_⟩
  have longer : rest ++ back = inner ++ .code ']' :: (after ++ back) := by
    rw [whole, List.append_assoc]
    rfl
  rw [List.cons_append, readKey?, if_pos rfl, longer, splitClose_of_append split]

theorem decided_word {c : Char} (cut : Cut (.code c :: rest)) (key : isKeyChar c = true) :
    Decided readKey? (.code c :: rest) := by
  have other : Piece.code c ≠ .code ';' := by
    rintro ⟨⟩
    exact absurd key (by decide)
  have index : c ≠ '[' := by
    rintro rfl
    exact absurd key (by decide)
  have last := (cut.ended.of_cons other).last
  have each (back : List Piece) : readKey? (.code c :: rest ++ back) =
      some (c :: textOf (rest.takeWhile Piece.isKeyPiece),
        rest.dropWhile Piece.isKeyPiece ++ back) := by
    rw [List.cons_append, readKey?, if_neg index, if_pos key, takeWhile_append_of_last last rfl,
      dropWhile_append_of_last last rfl]
  have here := each []
  rw [List.append_nil, List.append_nil] at here
  exact .inr ⟨_, _, cut.of_leads (Standing.leads_of_readKey? here)
    (dropWhile_ne_nil_of_last last rfl), each⟩

/-- The key that opens pieces is decided in front of the semicolon. -/
theorem decided_readKey? (cut : Cut found) : Decided readKey? found := by
  cases found with
  | nil => exact absurd rfl cut.ne_nil
  | cons piece rest =>
    cases piece with
    | comment span => exact .inl fun back => rfl
    | quoted span => exact cut.decided_quoted
    | code c =>
      by_cases index : c = '['
      · subst index
        exact cut.decided_index
      · cases key : isKeyChar c with
        | true => exact cut.decided_word key
        | false =>
          exact .inl fun back => by
            rw [List.cons_append, readKey?, if_neg index, if_neg (by simp [key])]

theorem decided_readModifiedKey? (cut : Cut found) : Decided readModifiedKey? found := by
  rcases cut.decided_readKey? with none | ⟨name, after, behind, first⟩
  · exact .inl fun back => by rw [readModifiedKey?, none]
  · right
    obtain ⟨next, trivia⟩ := behind.skipTrivia
    have each (back : List Piece) : readModifiedKey? (found ++ back) =
        if name = "readonly" ∧ (TypedClient.skipTrivia after).length < after.length then
          some ((readKey? (TypedClient.skipTrivia after ++ back)).getD (name, after ++ back))
        else some (name, after ++ back) := by
      rw [readModifiedKey?, first]
      dsimp only
      rw [trivia, List.length_append, List.length_append]
      simp only [Nat.add_lt_add_iff_right]
    by_cases modifier : name = "readonly" ∧
        (TypedClient.skipTrivia after).length < after.length
    · rcases next.decided_readKey? with none | ⟨key, left, cutLeft, second⟩
      · exact ⟨name, after, behind, fun back => by rw [each, if_pos modifier, none]; rfl⟩
      · exact ⟨key, left, cutLeft, fun back => by rw [each, if_pos modifier, second]; rfl⟩
    · exact ⟨name, after, behind, fun back => by rw [each, if_neg modifier]⟩

theorem readMark (cut : Cut found) : ∃ optional left, Cut left ∧
    ∀ back, readMark (found ++ back) = (optional, left ++ back) := by
  obtain ⟨next, trivia⟩ := cut.skipTrivia
  unfold TypedClient.readMark
  cases start : TypedClient.skipTrivia found with
  | nil => exact absurd start next.ne_nil
  | cons piece rest =>
    rw [start] at next trivia
    by_cases mark : piece = .code '?'
    · subst mark
      have behind : Cut rest := next.of_leads (.cons rfl (.refl rest))
        (next.ended.of_cons (by simp)).ne_nil
      obtain ⟨last, later⟩ := behind.skipTrivia
      refine ⟨true, TypedClient.skipTrivia rest, last, fun back => ?_⟩
      rw [trivia, List.cons_append]
      exact congrArg (Prod.mk true) (later back)
    · refine ⟨false, piece :: rest, next, fun back => ?_⟩
      rw [trivia]
      split
      · rename_i same
        exact absurd (List.head_eq_of_cons_eq same) mark
      · rfl

/-- An entry that begins in front of the semicolon ends there or before. -/
theorem readEntry (cut : Cut found) : ∃ member left, (left = [] ∨ Cut left) ∧
    ∀ back, (readEntry (found ++ back)).1.map (·.member) = member ∧
      (TypedClient.readEntry (found ++ back)).2 = left ++ back := by
  unfold TypedClient.readEntry
  rcases cut.decided_readModifiedKey? with none | ⟨name, after, behind, key⟩
  · obtain ⟨value, piece, left, still, same⟩ := cut.readValue
    exact ⟨_, left, still, fun back => by rw [none, same]; exact ⟨rfl, rfl⟩⟩
  · obtain ⟨optional, colon, next, mark⟩ := behind.readMark
    cases colon with
    | nil => exact absurd rfl next.ne_nil
    | cons piece rest =>
      by_cases isColon : piece = .code ':'
      · subst isColon
        have inside : Cut rest := next.of_leads (.cons rfl (.refl rest))
          (next.ended.of_cons (by simp)).ne_nil
        obtain ⟨value, piece, left, still, same⟩ := inside.readValue
        refine ⟨some ⟨name, optional, trim (textOf value)⟩, left, still, fun back => ?_⟩
        rw [key]
        dsimp only
        simp only [mark, List.cons_append, same]
        exact ⟨rfl, rfl⟩
      · obtain ⟨value, first, left, still, same⟩ := next.readValue
        refine ⟨none, left, still, fun back => ?_⟩
        rw [key]
        dsimp only
        rw [mark]
        split
        · rename_i equal
          cases equal
          exact absurd rfl isColon
        · rename_i equal
          cases equal
          rw [same]
          exact ⟨rfl, rfl⟩

end Cut

/-- What is passed over in front of an entry makes no difference. -/
theorem entriesFrom_of_separators {one other : List Piece}
    (same : one.dropWhile Piece.isSeparator = other.dropWhile Piece.isSeparator) :
    entriesFrom one = entriesFrom other := by
  cases start : other.dropWhile Piece.isSeparator with
  | nil => rw [entriesFrom_of_empty (same.trans start), entriesFrom_of_empty start]
  | cons piece rest =>
    rw [WrittenMember.entriesFrom_of_start (List.cons_ne_nil _ _) (same.trans start),
      WrittenMember.entriesFrom_of_start (List.cons_ne_nil _ _) start]

/-- The members of a body are those in front of a semicolon outside all brackets and those behind
it. -/
theorem Cut.members_append (cut : Cut found) (back : List Piece) :
    (entriesFrom (found ++ back)).map (·.member) =
      (entriesFrom found).map (·.member) ++ (entriesFrom back).map (·.member) := by
  -- The induction follows the entries in front of the semicolon.
  fun_induction entriesFrom found with
  | case1 found none =>
    have passed : (found ++ back).dropWhile Piece.isSeparator =
        back.dropWhile Piece.isSeparator :=
      List.dropWhile_append_of_pos (List.dropWhile_eq_nil_iff.mp none)
    rw [entriesFrom_of_separators passed]
    rfl
  | case2 found piece rest start ih =>
    have here : Cut (piece :: rest) := by
      refine cut.of_leads ?_ (List.cons_ne_nil piece rest)
      exact start ▸ Standing.leads_dropSeparators found
    have passed : (found ++ back).dropWhile Piece.isSeparator = piece :: rest ++ back := by
      rw [List.dropWhile_append, start]
      rfl
    obtain ⟨member, left, still, each⟩ := here.readEntry
    have first := each []
    rw [List.append_nil, List.append_nil] at first
    obtain ⟨longer, behind⟩ := each back
    rw [WrittenMember.entriesFrom_of_start (by simp) passed, List.map_append, List.map_append,
      List.append_assoc, behind, first.2]
    rw [first.2] at ih
    congr 1
    · rw [← Option.toList_map, ← Option.toList_map, longer, first.1]
    · rcases still with rfl | cutLeft
      · have none : entriesFrom [] = [] := entriesFrom_of_empty rfl
        rw [List.nil_append, none]
        rfl
      · exact ih cutLeft

end Entries

end TypedClient
