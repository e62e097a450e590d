import TypedClient.Proofs.TypeLiteral.Offsets
import TypedClient.Proofs.TypeLiteral.Placement
import TypedClient.Proofs.TypeLiteral.Standing

/-!
Steps by offsets and by pieces. Where the rest of a body has certain pieces, every step of the
reader by offsets does what the step on these pieces does. Main statement: a value ends at the
offset where the pieces behind it start, and no cut on the way fails.
-/

namespace TypedClient

open Text Utf8

/-- Whether a scan that starts somewhere in a body finds these pieces. -/
structure IsRest (body : Text) (found : List Piece) : Prop where
  aligned : Aligned found
  suffix : textOf found <:+ body

/-- Where the rest of a body with these pieces starts. -/
def restOffset (body : Text) (found : List Piece) : Nat := body.size - (textOf found).size

section Rests

variable {body : Text} {piece : Piece} {c mark : Char} {found front rest : List Piece}

theorem isRest_pieces (body : Text) : IsRest body (pieces body) :=
  ⟨aligned_pieces body, by rw [textOf_pieces]⟩

@[simp] theorem restOffset_pieces (body : Text) : restOffset body (pieces body) = 0 := by
  rw [restOffset, textOf_pieces, Nat.sub_self]

@[simp] theorem restOffset_nil (body : Text) : restOffset body [] = body.size := rfl

/-- A boundary is where some rest of a body starts. -/
theorem exists_rest {here : Nat} (boundary : IsBoundary body here) :
    ∃ found, IsRest body found ∧ restOffset body found = here := by
  obtain ⟨before, after, rfl, rfl⟩ := boundary
  refine ⟨pieces after, ⟨aligned_pieces after, ?_⟩, ?_⟩
  · rw [textOf_pieces]
    exact List.suffix_append before after
  · rw [restOffset, textOf_pieces, size_append, Nat.add_sub_cancel]

/-- A pair with what stands inside, and what follows it. -/
theorem cons_eq_of_splitClose {closer : Char} {inner after : List Piece}
    (split : splitClose c closer 0 rest = some (inner, after)) :
    .code c :: rest = (.code c :: inner ++ [.code closer]) ++ after := by
  rw [splitClose_append split]
  simp

namespace IsRest

theorem of_suffix (isRest : IsRest body found) (ending : rest <:+ found) : IsRest body rest := by
  obtain ⟨front, rfl⟩ := ending
  exact ⟨isRest.aligned.of_append_right,
    (textOf_suffix (List.suffix_append front rest)).trans isRest.suffix⟩

theorem of_cons (isRest : IsRest body (piece :: rest)) : IsRest body rest :=
  isRest.of_suffix (List.suffix_cons piece rest)

theorem of_append (isRest : IsRest body (front ++ rest)) : IsRest body rest :=
  isRest.of_suffix (List.suffix_append front rest)

theorem exists_lead (isRest : IsRest body found) :
    ∃ lead : Text, body = lead ++ textOf found ∧ restOffset body found = lead.size := by
  obtain ⟨lead, rfl⟩ := isRest.suffix
  exact ⟨lead, rfl, by rw [restOffset, size_append, Nat.add_sub_cancel]⟩

theorem restOffset_append (isRest : IsRest body (front ++ rest)) :
    restOffset body rest = restOffset body (front ++ rest) + (textOf front).size := by
  obtain ⟨lead, rfl, same⟩ := isRest.exists_lead
  rw [same, restOffset, textOf_append, size_append, size_append]
  omega

theorem restOffset_cons (isRest : IsRest body (piece :: rest)) :
    restOffset body rest = restOffset body (piece :: rest) + piece.text.size := by
  have one : restOffset body rest = restOffset body ([piece] ++ rest) + (textOf [piece]).size :=
    restOffset_append isRest
  simpa using one

theorem restOffset_lt (isRest : IsRest body (piece :: rest)) :
    restOffset body (piece :: rest) < body.size := by
  have filled := mt size_eq_zero.mp (isRest.aligned.textOf_ne_nil (List.cons_ne_nil piece rest))
  have within := isRest.suffix.length_le
  obtain ⟨lead, rfl, same⟩ := isRest.exists_lead
  rw [same, size_append]
  omega

theorem getElem? (isRest : IsRest body found) :
    (encode body)[restOffset body found]? = (encode (textOf found)).head? := by
  obtain ⟨lead, rfl, same⟩ := isRest.exists_lead
  rw [same, getElem?_encode]

theorem byteIs_iff (isRest : IsRest body found) (ascii : mark.toNat < 128) :
    byteIs body (restOffset body found) mark = true ↔ (textOf found).head? = some mark := by
  rw [byteIs, beq_iff_eq, isRest.getElem?, head?_encode ascii]

theorem byteIs_of_head? (isRest : IsRest body found) (head : (textOf found).head? = some c)
    (ascii : mark.toNat < 128) : byteIs body (restOffset body found) mark = (c == mark) := by
  rw [Bool.eq_iff_iff, isRest.byteIs_iff ascii, head, Option.some.injEq, beq_iff_eq]

theorem byteIs_code (isRest : IsRest body (.code c :: rest)) (ascii : mark.toNat < 128) :
    byteIs body (restOffset body (.code c :: rest)) mark = (c == mark) :=
  isRest.byteIs_of_head? rfl ascii

/-- A mark that opens nothing is a piece of its own. -/
theorem byteIs_iff_head? (isRest : IsRest body found) (mark : Char) (ascii : mark.toNat < 128)
    (inert : Piece.isInert mark = true) :
    byteIs body (restOffset body found) mark = true ↔ found.head? = some (.code mark) := by
  rw [isRest.byteIs_iff ascii]
  cases found with
  | nil => simp
  | cons piece rest =>
    cases piece with
    | code c => simp [Piece.text]
    | quoted span =>
      obtain ⟨quote, tail, rfl, opens⟩ := isRest.aligned.1.starts_quoted
      refine iff_of_false ?_ (by simp)
      rintro ⟨⟩
      simp [Piece.isInert, opens] at inert
    | comment span =>
      have slash := isRest.aligned.1.comment
      obtain ⟨tail, rfl⟩ := List.head?_eq_some_iff.mp slash
      refine iff_of_false ?_ (by simp)
      rintro ⟨⟩
      contradiction

theorem bytePieces (isRest : IsRest body found) :
    bytePieces body (restOffset body found) =
      (placeFrom (restOffset body found) found).flatMap Placed.inBytes := by
  obtain ⟨lead, rfl, same⟩ := isRest.exists_lead
  rw [same, bytePieces_append, pieces_textOf isRest.aligned]

theorem pieceAt?_code (isRest : IsRest body (.code c :: rest)) :
    pieceAt? body (restOffset body (.code c :: rest)) =
      some (.code (restOffset body (.code c :: rest))) := by
  obtain ⟨n, filled⟩ := Nat.exists_eq_succ_of_ne_zero c.utf8Size_pos.ne'
  rw [pieceAt?, isRest.bytePieces, placeFrom, List.flatMap_cons, Placed.inBytes]
  simp [filled, List.range'_succ]

theorem pieceAt?_quoted {span : Text} (isRest : IsRest body (.quoted span :: rest)) :
    pieceAt? body (restOffset body (.quoted span :: rest)) =
      some (.quoted (restOffset body (.quoted span :: rest)) (restOffset body rest)) := by
  rw [isRest.restOffset_cons, pieceAt?, isRest.bytePieces]
  rfl

theorem pieceAt?_comment {span : Text} (isRest : IsRest body (.comment span :: rest)) :
    pieceAt? body (restOffset body (.comment span :: rest)) =
      some (.comment (restOffset body (.comment span :: rest)) (restOffset body rest)) := by
  rw [isRest.restOffset_cons, pieceAt?, isRest.bytePieces]
  rfl

theorem cutOut (isRest : IsRest body (front ++ rest)) :
    cutOut body (restOffset body (front ++ rest)) (restOffset body rest) = .ok (textOf front) := by
  have found : between? (restOffset body (front ++ rest)) (restOffset body rest) body =
      some (textOf front) := by
    refine between?_eq_some_iff.mpr ⟨?_, isRest.restOffset_append.symm⟩
    obtain ⟨lead, whole, same⟩ := isRest.exists_lead
    exact ⟨lead, textOf rest, by rw [whole, textOf_append, List.append_assoc], same.symm⟩
  rw [TypedClient.cutOut, found]

theorem skipTriviaFrom (isRest : IsRest body found) :
    skipTriviaFrom body (restOffset body found) = restOffset body (skipTrivia found) := by
  obtain ⟨lead, rfl, same⟩ := isRest.exists_lead
  rw [same, TypedClient.skipTriviaFrom, dropBytes_append]
  simp only [pieces_textOf isRest.aligned, restOffset]

theorem closingOffset {closer : Char} (isRest : IsRest body (.code c :: rest))
    (pair : closing? c = some closer) :
    closingOffset body (restOffset body (.code c :: rest)) =
      match splitClose c closer 0 rest with
      | some (inner, _) =>
        .ok (restOffset body (.code c :: rest) + 1 + (textOf inner).size)
      | none => .error (.unbalanced (restOffset body (.code c :: rest))) := by
  obtain ⟨lead, rfl, same⟩ := isRest.exists_lead
  have found : closingOffset (lead ++ c :: textOf rest) lead.size = _ := closingOffset_append pair
  rwa [pieces_textOf isRest.of_cons.aligned, ← same] at found

/-- What follows a pair starts behind the bracket that closes it. -/
theorem restOffset_splitClose {closer : Char} {inner after : List Piece}
    (isRest : IsRest body (.code c :: rest)) (pair : closing? c = some closer)
    (split : splitClose c closer 0 rest = some (inner, after)) :
    restOffset body after = restOffset body (.code c :: rest) + 1 + (textOf inner).size + 1 := by
  obtain ⟨_, _, _, _, one, oneMore⟩ := plain_of_closing? pair
  have whole := cons_eq_of_splitClose (c := c) split
  have moved := (whole ▸ isRest).restOffset_append
  rw [← whole, textOf_append, textOf_cons, size_append, size_append, Piece.text, size_cons, one]
    at moved
  rw [moved, textOf_cons, Piece.text, size_append, size_cons, oneMore]
  simp
  omega

end IsRest

end Rests

section Separators

variable {body : Text} {found : List Piece}

theorem dropSeparators_skipTrivia (found : List Piece) :
    (skipTrivia found).dropWhile Piece.isSeparator = found.dropWhile Piece.isSeparator := by
  induction found with
  | nil => rfl
  | cons piece rest ih =>
    by_cases trivia : piece.isTrivia = true
    · have separator := Piece.isSeparator_of_isTrivia piece trivia
      rw [skipTrivia, List.dropWhile_cons_of_pos trivia, List.dropWhile_cons_of_pos separator]
      exact ih
    · rw [skipTrivia, List.dropWhile_cons_of_neg trivia]

/-- What is no trivia is a separator only if it is one of the two marks. -/
theorem isSeparator_of_skipTrivia {piece : Piece} {rest : List Piece}
    (skipped : skipTrivia found = piece :: rest) :
    piece.isSeparator = true ↔ piece = .code ';' ∨ piece = .code ',' := by
  have solid := List.head?_dropWhile_not Piece.isTrivia found
  unfold skipTrivia at skipped
  rw [skipped] at solid
  cases piece with
  | code c =>
    have plain : isAsciiBlank c = false := by simpa [Piece.isTrivia] using solid
    simp [Piece.isSeparator, plain]
  | quoted span => simp [Piece.isSeparator]
  | comment span => simp [Piece.isTrivia] at solid

theorem separatorsEnd_eq (isRest : IsRest body found) :
    separatorsEnd body (restOffset body found) =
      restOffset body (found.dropWhile Piece.isSeparator) := by
  induction length : found.length using Nat.strong_induction_on generalizing found with
  | _ n ih =>
    subst length
    have left : IsRest body (skipTrivia found) := isRest.of_suffix (skipTrivia_suffix found)
    rw [separatorsEnd, isRest.skipTriviaFrom, ← dropSeparators_skipTrivia]
    have marks : (byteIs body (restOffset body (skipTrivia found)) ';' ||
        byteIs body (restOffset body (skipTrivia found)) ',') = true ↔
          (skipTrivia found).head? = some (.code ';') ∨
            (skipTrivia found).head? = some (.code ',') := by
      rw [Bool.or_eq_true, left.byteIs_iff_head? ';' (by decide) (by decide),
        left.byteIs_iff_head? ',' (by decide) (by decide)]
    cases skipped : skipTrivia found with
    | nil =>
      rw [skipped] at marks
      rw [if_neg (mt marks.mp (by simp))]
      rfl
    | cons piece rest =>
      have separator := isSeparator_of_skipTrivia skipped
      rw [skipped] at left marks
      rw [List.head?_cons, Option.some.injEq, Option.some.injEq, ← separator] at marks
      by_cases passed : piece.isSeparator = true
      · have shorter := skipTrivia_length found
        rw [skipped, List.length_cons] at shorter
        have one : restOffset body (piece :: rest) + 1 = restOffset body rest := by
          rw [left.restOffset_cons]
          rcases separator.mp passed with rfl | rfl <;> rfl
        rw [if_pos (marks.mpr passed), one, List.dropWhile_cons_of_pos passed]
        exact ih rest.length shorter left.of_cons rfl
      · rw [if_neg (mt marks.mp passed), List.dropWhile_cons_of_neg passed]

end Separators

section Keys

variable {body span text : Text} {c closer : Char} {found rest : List Piece}

theorem ascii_of_isKeyChar (key : isKeyChar c = true) : c.toNat < 128 := by
  simp only [isKeyChar, Bool.or_eq_true, beq_iff_eq] at key
  rcases key with (word | rfl) | rfl
  · exact ascii_of_isAlphanum word
  · decide
  · decide

theorem isKeyByte_byteOf (ascii : c.toNat < 128) : isKeyByte (byteOf c) = isKeyChar c := by
  rw [isKeyByte, toNat_byteOf ascii, Char.ofNat_toNat, decide_eq_true ascii, Bool.true_and]

/-- The first byte of a character tells whether it is a key character. -/
theorem isKeyByte_of_encodeChar {first : UInt8} {more : Bytes}
    (bytes : String.utf8EncodeChar c = first :: more) : isKeyByte first = isKeyChar c := by
  rcases encodeChar_cases c with ⟨low, single⟩ | ⟨above, high⟩
  · cases bytes.symm.trans single
    exact isKeyByte_byteOf low
  · rw [bytes, List.all_cons, Bool.and_eq_true, isHigh, decide_eq_true_eq] at high
    have other : isKeyChar c = false := Bool.eq_false_iff.mpr fun key =>
      Nat.not_lt.mpr above (ascii_of_isKeyChar key)
    rw [isKeyByte, decide_eq_false (Nat.not_lt.mpr high.1), Bool.false_and, other]

/-- A run of key bytes is a run of key characters. -/
theorem takeWhile_isKeyByte (text : Text) :
    (encode text).takeWhile isKeyByte = encode (text.takeWhile isKeyChar) := by
  induction text with
  | nil => rfl
  | cons c rest ih =>
    cases key : isKeyChar c with
    | true =>
      have ascii := ascii_of_isKeyChar key
      rw [encode_ascii ascii, List.takeWhile_cons_of_pos (isKeyByte_byteOf ascii ▸ key),
        List.takeWhile_cons_of_pos key, ih, encode_ascii ascii]
    | false =>
      obtain ⟨first, more, bytes⟩ := exists_cons_encodeChar c
      rw [encode_cons, bytes, List.cons_append,
        List.takeWhile_cons_of_neg (by simp [isKeyByte_of_encodeChar bytes, key]),
        List.takeWhile_cons_of_neg (by simp [key])]
      rfl

theorem any_isKeyByte (isRest : IsRest body found) (head : (textOf found).head? = some c) :
    (encode body)[restOffset body found]?.any isKeyByte = isKeyChar c := by
  obtain ⟨rest, whole⟩ := List.head?_eq_some_iff.mp head
  obtain ⟨first, more, bytes⟩ := exists_cons_encodeChar c
  rw [isRest.getElem?, whole, encode_cons, bytes, List.cons_append, List.head?_cons,
    Option.any_some, isKeyByte_of_encodeChar bytes]

/-- No span or comment begins with a key character. -/
theorem takeWhile_isKeyChar (aligned : Aligned found) :
    (textOf found).takeWhile isKeyChar = textOf (found.takeWhile Piece.isKeyPiece) := by
  have stops {c : Char} (tail : Text) (piece : Piece) (rest : List Piece)
      (plain : isKeyChar c = false) (other : piece.isKeyPiece = false) :
      (c :: tail).takeWhile isKeyChar = textOf ((piece :: rest).takeWhile Piece.isKeyPiece) := by
    rw [List.takeWhile_cons_of_neg (by simp [plain]), List.takeWhile_cons_of_neg (by simp [other])]
    rfl
  induction found with
  | nil => rfl
  | cons piece rest ih =>
    cases piece with
    | code c =>
      rw [textOf_cons, Piece.text, List.singleton_append, List.takeWhile_cons, List.takeWhile_cons,
        ih aligned.2]
      split
      · rename_i key
        rw [if_pos (show (Piece.code c).isKeyPiece = true from key)]
        rfl
      · rename_i plain
        rw [if_neg (show ¬ (Piece.code c).isKeyPiece = true from plain)]
        rfl
    | quoted span =>
      obtain ⟨quote, tail, rfl, mark⟩ := aligned.1.starts_quoted
      refine stops (tail ++ textOf rest) _ rest ?_ rfl
      simp only [Piece.isQuote, Bool.or_eq_true, beq_iff_eq] at mark
      rcases mark with (rfl | rfl) | rfl <;> rfl
    | comment span =>
      obtain ⟨tail, rfl⟩ := List.head?_eq_some_iff.mp aligned.1.comment
      exact stops (tail ++ textOf rest) _ rest rfl rfl

/-- What stands inside of a span is the text between the offsets behind its first byte and in front
of its last one. -/
theorem between?_quoted (isRest : IsRest body (.quoted span :: rest)) :
    between? (restOffset body (.quoted span :: rest) + 1) (restOffset body rest - 1) body =
      insideQuotes? span := by
  obtain ⟨lead, rfl, same⟩ := isRest.exists_lead
  obtain ⟨quote, tail, rfl, mark⟩ := isRest.aligned.1.starts_quoted
  have one := Piece.utf8Size_of_isQuote mark
  rw [isRest.restOffset_cons, same, Piece.text, size_cons, one]
  rcases List.eq_nil_or_concat tail with rfl | ⟨before, last, rfl⟩
  · rw [between?, if_neg (by simp)]
    rfl
  · have inside : insideQuotes? (quote :: before.concat last) =
        if last.utf8Size = 1 then some before else none := by
      simp [insideQuotes?]
    rw [inside, List.concat_eq_append]
    split
    · rename_i single
      refine between?_eq_some_iff.mpr ⟨⟨lead ++ [quote], last :: textOf rest, by simp [Piece.text],
        by simp [one]⟩, ?_⟩
      rw [size_append, size_cons, single, size_nil]
      omega
    · rename_i wide
      -- The offset in front of the last byte cuts the last character.
      by_contra found
      obtain ⟨part, found⟩ := Option.ne_none_iff_exists'.mp found
      obtain ⟨⟨front, back, whole, starts⟩, stops⟩ := between?_eq_some_iff.mp found
      rw [size_append, size_cons, size_nil] at stops
      have filled := last.utf8Size_pos
      have boundary : IsBoundary ((lead ++ quote :: before) ++ (last :: textOf rest))
          ((lead ++ quote :: before).size + (last.utf8Size - 1)) := by
        refine ⟨front ++ part, back, ?_, ?_⟩
        · rw [← whole]
          simp [Piece.text]
        · rw [size_append, starts, size_append, size_cons, one]
          omega
      have past := boundary.of_append.le_of_cons (by omega)
      omega

/-- What a reader of keys finds where the rest of a body has certain pieces. -/
def keyBehind (body : Text) (found : List Piece) : Option (Text × Nat) :=
  (readKey? found).map fun (name, after) => (name, restOffset body after)

/-- What a key is told by its first character. -/
theorem keyAt_of_head? (isRest : IsRest body found) (head : (textOf found).head? = some c) :
    keyAt body (restOffset body found) =
      if c = '"' ∨ c = '\'' then
        match pieceAt? body (restOffset body found) with
        | some (.quoted start stop) =>
          .ok ((between? (start + 1) (stop - 1) body).map fun inner => (unescapeQuotes inner, stop))
        | _ => .ok none
      else if c = '[' then
        match closingOffset body (restOffset body found) with
        | .ok close =>
          (cutOut body (restOffset body found) (close + 1)).map fun key => some (key, close + 1)
        | .error _ => .ok none
      else if isKeyChar c then
        let stop := restOffset body found + size ((textOf found).takeWhile isKeyChar)
        (cutOut body (restOffset body found) stop).map fun key => some (key, stop)
      else .ok none := by
  have run : (((encode body).drop (restOffset body found)).takeWhile isKeyByte).length =
      size ((textOf found).takeWhile isKeyChar) := by
    obtain ⟨lead, rfl, same⟩ := isRest.exists_lead
    rw [same, encode_append, ← length_encode lead, List.drop_left, takeWhile_isKeyByte,
      length_encode]
  rw [keyAt, isRest.byteIs_of_head? head (by decide), isRest.byteIs_of_head? head (by decide),
    isRest.byteIs_of_head? head (by decide), any_isKeyByte isRest head, run]
  exact if_congr (by simp) rfl (if_congr beq_iff_eq rfl rfl)

/-- A key in quotes, unless they are those of a template. -/
theorem keyAt_quoted (isRest : IsRest body (.quoted span :: rest)) :
    keyAt body (restOffset body (.quoted span :: rest)) =
      .ok (keyBehind body (.quoted span :: rest)) := by
  obtain ⟨quote, tail, rfl, mark⟩ := isRest.aligned.1.starts_quoted
  rw [keyAt_of_head? isRest rfl, keyBehind, readKey?]
  by_cases template : quote = '\x60'
  · subst template
    rfl
  · have quoted : quote = '"' ∨ quote = '\'' := by
      simpa [Piece.isQuote, template] using mark
    rw [if_pos quoted, isRest.pieceAt?_quoted, if_neg (by simpa using template)]
    dsimp only
    rw [between?_quoted isRest, Option.map_map]
    rfl

/-- An index signature with its brackets. -/
theorem keyAt_index (isRest : IsRest body (.code '[' :: rest)) :
    keyAt body (restOffset body (.code '[' :: rest)) =
      .ok (keyBehind body (.code '[' :: rest)) := by
  rw [keyAt_of_head? isRest rfl, if_neg (by decide), if_pos rfl, isRest.closingOffset rfl,
    keyBehind, readKey?, if_pos rfl]
  cases split : splitClose '[' ']' 0 rest with
  | none => rfl
  | some pair =>
    obtain ⟨inner, after⟩ := pair
    have whole := cons_eq_of_splitClose (c := '[') split
    have cut := (whole ▸ isRest).cutOut
    rw [← whole] at cut
    dsimp only
    rw [← isRest.restOffset_splitClose rfl split, cut]
    simp [Piece.text, Except.map]

/-- A run of key characters. -/
theorem keyAt_run (isRest : IsRest body (.code c :: rest)) (key : isKeyChar c = true) :
    keyAt body (restOffset body (.code c :: rest)) = .ok (keyBehind body (.code c :: rest)) := by
  have plain : c ≠ '"' ∧ c ≠ '\'' ∧ c ≠ '[' := by
    refine ⟨?_, ?_, ?_⟩ <;>
    · rintro rfl
      contradiction
  have whole : .code c :: rest =
      (.code c :: rest.takeWhile Piece.isKeyPiece) ++ rest.dropWhile Piece.isKeyPiece := by
    rw [List.cons_append, List.takeWhile_append_dropWhile]
  have stop := (whole ▸ isRest).restOffset_append
  have cut := (whole ▸ isRest).cutOut
  rw [← whole] at stop cut
  rw [keyAt_of_head? isRest rfl, if_neg (by simp [plain]), if_neg plain.2.2, if_pos key,
    takeWhile_isKeyChar isRest.aligned,
    List.takeWhile_cons_of_pos (show (Piece.code c).isKeyPiece = true from key), ← stop]
  dsimp only
  rw [cut, keyBehind, readKey?, if_neg plain.2.2, if_pos key]
  rfl

/-- The key at the start of a rest of the body. -/
theorem keyAt_eq (isRest : IsRest body found) :
    keyAt body (restOffset body found) = .ok (keyBehind body found) := by
  cases found with
  | nil =>
    have byte := isRest.getElem?
    rw [keyAt, byteIs, byteIs, byteIs, byte]
    rfl
  | cons piece rest =>
    cases piece with
    | quoted span => exact keyAt_quoted isRest
    | comment span =>
      obtain ⟨tail, rfl⟩ := List.head?_eq_some_iff.mp isRest.aligned.1.comment
      exact keyAt_of_head? isRest rfl
    | code c =>
      by_cases index : c = '['
      · subst index
        exact keyAt_index isRest
      by_cases key : isKeyChar c = true
      · exact keyAt_run isRest key
      · have noQuote : ¬ (c = '"' ∨ c = '\'') := by
          rintro (rfl | rfl)
          · exact absurd isRest.aligned.1.code.1 (by decide)
          · exact absurd isRest.aligned.1.code.1 (by decide)
        rw [keyAt_of_head? isRest rfl, if_neg noQuote, if_neg index, if_neg key, keyBehind,
          readKey?, if_neg index, if_neg key]
        rfl

/-- Trivia takes bytes. -/
theorem restOffset_skipTrivia_lt (isRest : IsRest body found) :
    restOffset body found < restOffset body (skipTrivia found) ↔
      (skipTrivia found).length < found.length := by
  obtain ⟨front, whole⟩ := skipTrivia_suffix found
  generalize skipTrivia found = left at whole ⊢
  subst whole
  have moved := isRest.restOffset_append
  rw [List.length_append]
  cases front with
  | nil =>
    rw [textOf_nil, size_nil] at moved
    rw [List.length_nil]
    omega
  | cons piece front =>
    have aligned : Aligned (piece :: front) := isRest.aligned.of_append_left
    have filled := mt size_eq_zero.mp (aligned.textOf_ne_nil (List.cons_ne_nil piece front))
    rw [List.length_cons]
    omega

theorem modifiedKeyAt_eq (isRest : IsRest body found) :
    modifiedKeyAt body (restOffset body found) =
      .ok ((readModifiedKey? found).map fun (name, after) => (name, restOffset body after)) := by
  rw [modifiedKeyAt, keyAt_eq isRest, keyBehind, readModifiedKey?]
  cases read : readKey? found with
  | none => rfl
  | some key =>
    obtain ⟨name, after⟩ := key
    have behind := isRest.of_suffix (readKey?_suffix read)
    change (if name = "readonly" ∧
      restOffset body after < skipTriviaFrom body (restOffset body after) then _ else _) = _
    rw [behind.skipTriviaFrom, if_congr (and_congr_right fun _ => restOffset_skipTrivia_lt behind)
      rfl rfl]
    dsimp only
    split
    · rw [keyAt_eq (behind.of_suffix (skipTrivia_suffix after)), keyBehind]
      cases readKey? (skipTrivia after) <;> rfl
    · rfl

theorem markAt_eq (isRest : IsRest body found) :
    markAt body (restOffset body found) =
      ((readMark found).1, restOffset body (readMark found).2) := by
  have left : IsRest body (skipTrivia found) := isRest.of_suffix (skipTrivia_suffix found)
  have mark := left.byteIs_iff_head? '?' (by decide) (by decide)
  rw [markAt, isRest.skipTriviaFrom, readMark]
  by_cases is : byteIs body (restOffset body (skipTrivia found)) '?' = true
  · obtain ⟨rest, same⟩ := List.head?_eq_some_iff.mp (mark.mp is)
    rw [same] at left is ⊢
    have one : restOffset body (.code '?' :: rest) + 1 = restOffset body rest :=
      left.restOffset_cons.symm
    rw [if_pos is, one, left.of_cons.skipTriviaFrom]
    rfl
  · rw [if_neg is]
    split
    · rename_i same
      exact absurd (mark.mpr (congrArg List.head? same)) is
    · rfl

end Keys

section Values

variable {body : Text} {c closer : Char} {angles : Nat} {read found rest : List Piece}

/-- In front of an offset stands the last byte of what has been read. -/
theorem isArrowAt_iff (isRest : IsRest body (read ++ found)) (filled : read ≠ []) :
    isArrowAt body (restOffset body found) = true ↔ (textOf read).getLast? = some '=' := by
  have some := isRest.aligned.of_append_left.textOf_ne_nil filled
  have bytes : encode (textOf read) ≠ [] := by
    rw [ne_eq, ← List.length_eq_zero_iff, length_encode]
    exact mt size_eq_zero.mp some
  have offset := isRest.restOffset_append
  obtain ⟨lead, rfl, same⟩ := isRest.exists_lead
  have front : restOffset (lead ++ textOf (read ++ found)) found =
      (encode (lead ++ textOf read)).length := by
    rw [offset, same, length_encode, size_append]
  have positive : 0 < (encode (lead ++ textOf read)).length := by
    rw [encode_append, List.length_append]
    exact Nat.add_pos_right _ (List.length_pos_iff.mpr bytes)
  have last :
      (encode (lead ++ textOf (read ++ found)))[(encode (lead ++ textOf read)).length - 1]? =
        (encode (textOf read)).getLast? := by
    rw [textOf_append, ← List.append_assoc, encode_append, List.getElem?_append_left (by omega),
      ← List.getLast?_eq_getElem?, encode_append, List.getLast?_append_of_ne_nil _ bytes]
  rw [isArrowAt, front, byteIs, last, decide_eq_true positive, Bool.true_and, beq_iff_eq,
    getLast?_encode (by decide)]

theorem endsLineAt_eq (isRest : IsRest body (read ++ .code '\n' :: rest)) :
    endsLineAt body (restOffset body (read ++ .code '\n' :: rest))
        (restOffset body (.code '\n' :: rest)) = .ok (endsLine (textOf read).reverse rest) := by
  have behind := isRest.of_append
  have one : restOffset body (.code '\n' :: rest) + 1 = restOffset body rest :=
    behind.restOffset_cons.symm
  have after := behind.of_cons.of_suffix (skipTrivia_suffix rest)
  have cut : cutOut body (restOffset body (skipTrivia rest)) body.size =
      .ok (textOf (skipTrivia rest)) := by
    have whole : IsRest body (skipTrivia rest ++ []) := by rwa [List.append_nil]
    simpa using whole.cutOut
  have last : (trimEnd (textOf read)).getLast? =
      ((textOf read).reverse.dropWhile isBlank).head? := by
    rw [trimEnd, List.getLast?_reverse]
  rw [endsLineAt, isRest.cutOut, one, behind.of_cons.skipTriviaFrom, cut, endsLine_eq, ← last]
  change (if (trimEnd (textOf read)).getLast?.any (!asksForMore ·) = true then
    .ok (opensWithMember (textOf (skipTrivia rest))) else .ok false) = Except.ok _
  split
  · rename_i more
    rw [more, Bool.true_and]
  · rename_i asks
    rw [Bool.eq_false_iff.mpr asks, Bool.false_and]

/-- A character that opens no pair ends a value or moves the reader on by one byte. -/
theorem valueStep_plain (isRest : IsRest body (read ++ .code c :: rest))
    (level : read = [] → angles = 0) (plain : closing? c = none) :
    valueStep body (restOffset body (read ++ .code c :: rest)) angles
        (restOffset body (.code c :: rest)) =
      .ok (if endsValue angles (textOf read).reverse c rest then .ends
        else .goesOn (nextAngles angles (textOf read).reverse c)
          (restOffset body (.code c :: rest) + 1)) := by
  have here := isRest.of_append
  have noBracket :
      ((encode body)[restOffset body (.code c :: rest)]?.bind closingByte?) = none := by
    rw [here.getElem?, Option.bind_eq_none_iff]
    exact closingByte?_of_none plain (textOf rest)
  rw [valueStep, noBracket, if_neg (by simp), here.byteIs_code (by decide),
    here.byteIs_code (by decide), here.byteIs_code (by decide), here.byteIs_code (by decide),
    here.byteIs_code (by decide)]
  by_cases opens : c = '<'
  · subst opens
    simp [endsValue, nextAngles]
  by_cases closes : c = '>'
  · subst closes
    have arrow : (if isArrowAt body (restOffset body (.code '>' :: rest)) then angles
        else angles - 1) = nextAngles angles (textOf read).reverse '>' := by
      by_cases first : read = []
      · simp [level first, nextAngles]
      · rw [if_congr (isArrowAt_iff isRest first) rfl rfl]
        simp [nextAngles]
    rw [if_neg (by decide), if_pos (by decide), arrow]
    simp [endsValue]
  have still : nextAngles angles (textOf read).reverse c = angles := by
    rw [nextAngles, if_neg opens, if_neg closes]
  rw [still, if_neg (by simpa using opens), if_neg (by simpa using closes)]
  by_cases separates : c = ';' ∨ c = ','
  · cases angles <;> rcases separates with rfl | rfl <;> simp [endsValue]
  have noSeparator : (c == ';' || c == ',') = false := by simpa using separates
  rw [noSeparator, Bool.false_and, if_neg Bool.false_ne_true]
  by_cases feeds : c = '\n'
  · subst feeds
    rw [endsLineAt_eq isRest]
    cases angles <;> simp [endsValue, Except.map]
  · simp [endsValue, noSeparator, feeds]

variable {start here : Nat}

theorem valueStep_bracket (isRest : IsRest body (.code c :: rest))
    (pair : closing? c = some closer) :
    valueStep body start angles (restOffset body (.code c :: rest)) =
      .ok (match splitClose c closer 0 rest with
        | some (_, after) => .goesOn angles (restOffset body after)
        | none => .takesRest) := by
  obtain ⟨ascii, _⟩ := plain_of_closing? pair
  have bracket : ((encode body)[restOffset body (.code c :: rest)]?.bind closingByte?) =
      some (byteOf closer) := by
    rw [isRest.getElem?, textOf_cons, Piece.text, List.singleton_append, encode_ascii ascii,
      List.head?_cons, Option.bind_some, closingByte?_byteOf ascii, pair, Option.map_some]
  rw [valueStep, bracket, if_pos (Option.isSome_some), isRest.closingOffset pair]
  cases split : splitClose c closer 0 rest with
  | none => rfl
  | some found =>
    dsimp only
    rw [isRest.restOffset_splitClose pair split]

/-- A pair is read over at once: the value goes on behind the bracket that closes it, and one that
is never closed takes all that is left. -/
theorem splitValue_pair (angles : Nat) (opening closing : Char) (depth : Nat) (before : Text)
    (found : List Piece) :
    (splitValue angles (some ⟨opening, closing, depth⟩) before found).2 =
      match splitClose opening closing depth found with
      | some (inner, after) =>
        (splitValue angles none (closing :: (textOf inner).reverse ++ before) after).2
      | none => [] := by
  induction found generalizing depth before with
  | nil => rfl
  | cons piece rest ih =>
    cases piece with
    | code c =>
      rw [splitValue_inside, splitClose_code]
      by_cases ends : c = closing ∧ c ≠ opening ∧ depth = 0
      · obtain ⟨rfl, other, rfl⟩ := ends
        rw [if_pos ⟨rfl, other, rfl⟩, OpenPair.next, if_neg other, if_pos rfl]
        rfl
      · rw [if_neg ends, OpenPair.next_of_inside ends, ih]
        cases splitClose opening closing _ rest <;> simp [Piece.text]
    | quoted span =>
      rw [splitValue_span _ _ _ span (.inl rfl), splitClose_quoted, ih]
      cases splitClose opening closing depth rest <;> simp [Piece.text]
    | comment span =>
      rw [splitValue_span _ _ _ span (.inr rfl), splitClose_comment, ih]
      cases splitClose opening closing depth rest <;> simp [Piece.text]

theorem valueEndFrom_code (found : pieceAt? body here = some (.code here)) :
    valueEndFrom body start angles here =
      match valueStep body start angles here with
      | .error bad => .error bad
      | .ok .ends => .ok here
      | .ok .takesRest => .ok body.size
      | .ok (.goesOn more next) => valueEndFrom body start more next := by
  rw [valueEndFrom]
  split <;> (rename_i same; rw [found] at same; cases same)
  split <;> (rename_i step; rw [step])

theorem valueEndFrom_span {piece : BytePiece} (found : pieceAt? body here = some piece)
    (span : piece.isSpan = true) :
    valueEndFrom body start angles here = valueEndFrom body start angles piece.stop := by
  rw [valueEndFrom]
  cases piece with
  | code index => cases span
  | quoted first last =>
    split <;> (rename_i same; rw [found] at same; cases same)
    rfl
  | comment first last =>
    split <;> (rename_i same; rw [found] at same; cases same)
    rfl

/-- A value goes on over a byte outside ASCII. -/
theorem valueEndFrom_high {byte : UInt8} (known : (encode body)[here]? = some byte)
    (high : isHigh byte = true) :
    valueEndFrom body start angles here = valueEndFrom body start angles (here + 1) := by
  have piece : pieceAt? body here = some (.code here) := by
    obtain ⟨inside, rfl⟩ := List.getElem?_eq_some_iff.mp known
    have slash : (encode body)[here] ≠ byteOf '/' := ne_byteOf_of_isHigh high (by decide)
    rw [pieceAt?, bytePieces, List.drop_eq_getElem_cons inside,
      scanBytes_plain (isQuoteByte_of_isHigh high) (absurd · slash), List.head?_cons]
  have other {mark : Char} (ascii : mark.toNat < 128) : byteIs body here mark = false := by
    rw [byteIs, known]
    exact beq_false_of_ne (mt Option.some.inj (ne_byteOf_of_isHigh high ascii))
  have step : valueStep body start angles here = .ok (.goesOn angles (here + 1)) := by
    rw [valueStep, known, Option.bind_some, closingByte?_of_isHigh high, other (by decide),
      other (by decide), other (by decide), other (by decide), other (by decide)]
    rfl
  rw [valueEndFrom_code piece, step]

/-- Of a character of code, the bytes behind the first one change nothing. -/
theorem valueEndFrom_behind (isRest : IsRest body (.code c :: rest)) :
    valueEndFrom body start angles (restOffset body (.code c :: rest) + 1) =
      valueEndFrom body start angles (restOffset body rest) := by
  have bytes (index : Nat) (inside : index < c.utf8Size) :
      (encode body)[restOffset body (.code c :: rest) + index]? =
        (String.utf8EncodeChar c)[index]? := by
    obtain ⟨lead, rfl, same⟩ := isRest.exists_lead
    rw [same, getElem?_encode_add, textOf_cons, Piece.text, List.singleton_append, encode_cons,
      List.getElem?_append_left (by rwa [String.length_utf8EncodeChar])]
  rw [isRest.restOffset_cons, Piece.text, size_cons, size_nil, Nat.add_zero]
  rcases encodeChar_cases c with ⟨_, single⟩ | ⟨_, high⟩
  · have one := congrArg List.length single
    rw [String.length_utf8EncodeChar, List.length_singleton] at one
    rw [one]
  · have onward (count : Nat) (within : count + 1 ≤ c.utf8Size) :
        valueEndFrom body start angles (restOffset body (.code c :: rest) + 1) =
          valueEndFrom body start angles (restOffset body (.code c :: rest) + (count + 1)) := by
      induction count with
      | zero => rfl
      | succ count ih =>
        have inside : count + 1 < (String.utf8EncodeChar c).length := by
          rw [String.length_utf8EncodeChar]
          omega
        have known := (bytes (count + 1) (by omega)).trans (List.getElem?_eq_getElem inside)
        have byte := List.all_eq_true.mp high _ (List.getElem_mem inside)
        rw [ih (by omega), valueEndFrom_high known byte]
        rfl
    obtain ⟨count, size⟩ := Nat.exists_eq_succ_of_ne_zero c.utf8Size_pos.ne'
    rw [onward count (by omega), size]

theorem valueEndFrom_size (body : Text) (start angles : Nat) :
    valueEndFrom body start angles body.size = .ok body.size := by
  have none : pieceAt? body body.size = none := by
    rw [pieceAt?, bytePieces, ← length_encode, List.drop_length]
    rfl
  rw [valueEndFrom]
  split <;> rename_i same <;> rw [none] at same <;> cases same

/-- A bracket that opens a pair ends no value and is no angle bracket. -/
theorem passes_of_closing? (pair : closing? c = some closer) (angles : Nat) (before : Text)
    (rest : List Piece) :
    endsValue angles before c rest = false ∧ nextAngles angles before c = angles := by
  unfold closing? at pair
  split at pair <;> cases pair <;> simp [endsValue, nextAngles]

/-- A value is read to the same place by offsets and by pieces. At its start no angle bracket is
open, so that an equals sign in front of it makes no difference. -/
theorem valueEndFrom_eq (isRest : IsRest body (read ++ found)) (level : read = [] → angles = 0) :
    valueEndFrom body (restOffset body (read ++ found)) angles (restOffset body found) =
      .ok (restOffset body (splitValue angles none (textOf read).reverse found).2) := by
  induction length : found.length using Nat.strong_induction_on generalizing read found angles with
  | _ n ih =>
    have onward (front rest : List Piece) (angles : Nat) (whole : found = front ++ rest)
        (filled : front ≠ []) :
        valueEndFrom body (restOffset body (read ++ found)) angles (restOffset body rest) =
          .ok (restOffset body
            (splitValue angles none ((textOf front).reverse ++ (textOf read).reverse) rest).2) := by
      subst whole
      have shorter : rest.length < n := by
        rw [← length, List.length_append]
        exact Nat.lt_add_of_pos_left (List.length_pos_iff.mpr filled)
      rw [← List.append_assoc] at isRest
      have level : read ++ front = [] → angles = 0 := by simp [filled]
      have later := ih rest.length shorter isRest level rfl
      rwa [List.append_assoc, textOf_append, List.reverse_append] at later
    have here := isRest.of_append
    cases found with
    | nil => exact valueEndFrom_size body _ angles
    | cons piece rest =>
      cases piece with
      | quoted span =>
        rw [valueEndFrom_span here.pieceAt?_quoted rfl, splitValue_span _ _ _ span (.inl rfl)]
        simpa [Piece.text, BytePiece.stop] using
          onward [.quoted span] rest angles rfl (List.cons_ne_nil _ _)
      | comment span =>
        rw [valueEndFrom_span here.pieceAt?_comment rfl, splitValue_span _ _ _ span (.inr rfl)]
        simpa [Piece.text, BytePiece.stop] using
          onward [.comment span] rest angles rfl (List.cons_ne_nil _ _)
      | code c =>
        rw [valueEndFrom_code here.pieceAt?_code, splitValue_outside]
        cases pair : closing? c with
        | none =>
          have outside : OpenPair.start? c = none := by rw [OpenPair.start?, pair, Option.map_none]
          rw [valueStep_plain isRest level pair, outside]
          by_cases ends : endsValue angles (textOf read).reverse c rest = true
          · rw [if_pos ends, if_pos ends]
          · rw [if_neg ends, if_neg ends]
            dsimp only
            rw [valueEndFrom_behind here]
            exact onward [.code c] rest _ rfl (List.cons_ne_nil _ _)
        | some closer =>
          obtain ⟨goesOn, still⟩ := passes_of_closing? pair angles (textOf read).reverse rest
          have inside : OpenPair.start? c = some ⟨c, closer, 0⟩ := by
            rw [OpenPair.start?, pair, Option.map_some]
          rw [valueStep_bracket here pair, goesOn, if_neg Bool.false_ne_true, still, inside]
          dsimp only
          rw [splitValue_pair]
          cases split : splitClose c closer 0 rest with
          | none => rfl
          | some found =>
            obtain ⟨inner, after⟩ := found
            have later := onward _ after angles (cons_eq_of_splitClose split) (by simp)
            simpa [Piece.text] using later

theorem valueEnd_eq (isRest : IsRest body found) :
    valueEnd body (restOffset body found) = .ok (restOffset body (readValue found).2) := by
  have whole : IsRest body ([] ++ found) := isRest
  exact valueEndFrom_eq whole fun _ => rfl

end Values

end TypedClient
