import TypedClient.Proofs.Piece.Opacity
import TypedClient.Proofs.Piece.Stripping
import TypedClient.Proofs.Text.Boundary

/-!
Pieces laid side by side. Main statement: from an offset between two characters on, the pieces of a
text take all its bytes one after another, none of them empty. A span or comment is whole
characters, is closed unless the text ends with it, and is opened by its mark; inside of it no piece
begins.
-/

namespace TypedClient

open Text Utf8

namespace BytePiece

def start : BytePiece → Nat
  | code index => index
  | quoted first _ | comment first _ => first

/-- The offset behind the last byte. -/
def stop : BytePiece → Nat
  | code index => index + 1
  | quoted _ last | comment _ last => last

def isSpan : BytePiece → Bool
  | code _ => false
  | quoted _ _ | comment _ _ => true

end BytePiece

/-- Pieces that are not empty lead from one offset to another, each from where the one before it
ends. -/
inductive Tiles : Nat → Nat → List BytePiece → Prop
  | nil (here : Nat) : Tiles here here []
  | cons {here last : Nat} {piece : BytePiece} {rest : List BytePiece} (starts : piece.start = here)
      (wide : here < piece.stop) (later : Tiles piece.stop last rest) :
      Tiles here last (piece :: rest)

/-- Whether a quote or the mark of a comment stands at an offset. -/
def opensAt (bytes : Bytes) (index : Nat) : Bool :=
  bytes[index]?.any isQuoteByte ||
    bytes[index]? == some (byteOf '/') &&
      (bytes[index + 1]? == some (byteOf '/') || bytes[index + 1]? == some (byteOf '*'))

/-- A quoted span that its opening quote closes, with an even number of backslashes right before. -/
def ClosedEvenly (span : Bytes) : Prop :=
  ∃ quote inside count, isQuoteByte quote = true ∧
    span = quote :: (inside ++ List.replicate (2 * count) (byteOf '\\')) ++ [quote] ∧
    inside.getLast? ≠ some (byteOf '\\')

/-- A comment that is a line without a line feed, or a block. -/
def LineOrBlock (span : Bytes) : Prop :=
  (∃ line, span = byteOf '/' :: byteOf '/' :: line ∧ byteOf '\n' ∉ line) ∨
    ∃ block, span = byteOf '/' :: byteOf '*' :: block

section Tiles

variable {here middle last : Nat} {found more : List BytePiece}

theorem Tiles.append (front : Tiles here middle found) (back : Tiles middle last more) :
    Tiles here last (found ++ more) := by
  induction front with
  | nil => exact back
  | cons starts wide _ ih => exact .cons starts wide (ih back)

theorem tiles_range' (here count : Nat) :
    Tiles here (here + count) ((List.range' here count).map .code) := by
  induction count generalizing here with
  | zero => exact .nil here
  | succ count ih =>
    refine .cons rfl (Nat.lt_succ_self here) ?_
    rw [Nat.add_comm count, ← Nat.add_assoc]
    exact ih (here + 1)

theorem tiles_inBytes (piece : Piece) (filled : piece.text ≠ []) (here : Nat) :
    Tiles here (here + piece.text.size)
      (Placed.inBytes ⟨piece, here, here + piece.text.size⟩) := by
  have wide : here < here + piece.text.size := by
    have some := mt size_eq_zero.mp filled
    omega
  cases piece with
  | code c => exact tiles_range' here c.utf8Size
  | quoted span => exact .cons rfl wide (.nil _)
  | comment span => exact .cons rfl wide (.nil _)

theorem tiles_placeFrom {pieces : List Piece} (aligned : Aligned pieces) (here : Nat) :
    Tiles here (here + (textOf pieces).size) ((placeFrom here pieces).flatMap Placed.inBytes) := by
  induction pieces generalizing here with
  | nil => exact .nil here
  | cons piece rest ih =>
    obtain ⟨c, tail, starts, _⟩ := aligned.1
    have first := tiles_inBytes piece (by simp [starts]) here
    have later := ih aligned.2 (here + piece.text.size)
    rw [placeFrom, List.flatMap_cons, textOf_cons, size_append, ← Nat.add_assoc]
    exact first.append later

/-- The pieces tile the text behind any offset, even one that cuts a character. -/
theorem tiles_bytePieces {text : Text} {offset : Nat} (within : offset ≤ text.size) :
    Tiles offset text.size (bytePieces text offset) := by
  obtain ⟨run, bytes, _, length⟩ := drop_encode offset text
  have sizes := congrArg List.length bytes
  rw [List.length_drop, List.length_append, length_encode, length_encode, length] at sizes
  have behind := tiles_placeFrom (aligned_pieces (dropBytes offset text).2)
    (offset + (dropBytes offset text).1)
  have reached : offset + (dropBytes offset text).1 + (dropBytes offset text).2.size =
      text.size := by omega
  rw [textOf_pieces, reached] at behind
  rw [bytePieces_eq]
  exact (tiles_range' offset _).append behind

theorem Tiles.le (tiles : Tiles here last found) : here ≤ last := by
  induction tiles with
  | nil => exact Nat.le_refl _
  | cons _ wide _ ih => exact Nat.le_trans (Nat.le_of_lt wide) ih

theorem Tiles.bounds {piece : BytePiece} (tiles : Tiles here last found) (member : piece ∈ found) :
    here ≤ piece.start ∧ piece.start < piece.stop ∧ piece.stop ≤ last := by
  induction tiles with
  | nil => contradiction
  | cons starts wide later ih =>
    rcases List.mem_cons.mp member with rfl | inside
    · exact ⟨Nat.le_of_eq starts.symm, starts ▸ wide, later.le⟩
    · obtain ⟨low, high, most⟩ := ih inside
      exact ⟨Nat.le_trans (Nat.le_of_lt wide) low, high, most⟩

/-- No piece begins inside of another one. -/
theorem Tiles.not_inside {one other : BytePiece} (tiles : Tiles here last found)
    (member : one ∈ found) (listed : other ∈ found) :
    ¬ (one.start < other.start ∧ other.start < one.stop) := by
  induction tiles with
  | nil => contradiction
  | cons starts wide later ih =>
    rcases List.mem_cons.mp member with rfl | inside
    · rcases List.mem_cons.mp listed with rfl | behind
      · exact fun both => Nat.lt_irrefl _ both.1
      · exact fun both => Nat.not_lt.mpr (later.bounds behind).1 both.2
    · rcases List.mem_cons.mp listed with rfl | behind
      · have past := (later.bounds inside).1
        omega
      · exact ih inside behind

end Tiles

section Bytes

variable {mark : Char} {text span : Text}

/-- A byte of ASCII in a text is one of its characters. -/
theorem mem_of_mem_encode (ascii : mark.toNat < 128) (member : byteOf mark ∈ encode text) :
    mark ∈ text := by
  obtain ⟨c, listed, inside⟩ := List.mem_flatMap.mp member
  rcases encodeChar_cases c with ⟨low, single⟩ | ⟨_, high⟩
  · rw [single, List.mem_singleton] at inside
    exact (byteOf_inj ascii low).mp inside ▸ listed
  · exact absurd rfl (ne_byteOf_of_isHigh (List.all_eq_true.mp high _ inside) ascii)

theorem getLast?_encode (ascii : mark.toNat < 128) :
    (encode text).getLast? = some (byteOf mark) ↔ text.getLast? = some mark := by
  rcases List.eq_nil_or_concat text with rfl | ⟨front, c, rfl⟩
  · simp
  · have filled : encode [c] ≠ [] := by
      obtain ⟨first, more, bytes⟩ := exists_cons_encodeChar c
      simp [bytes]
    rw [List.concat_eq_append, encode_append, List.getLast?_append_of_ne_nil _ filled,
      List.getLast?_concat, Option.some.injEq]
    constructor
    · intro last
      exact (List.mem_singleton.mp (mem_of_mem_encode ascii (List.mem_of_getLast? last))).symm
    · rintro rfl
      rw [encode_ascii ascii]
      rfl

theorem encode_replicate (ascii : mark.toNat < 128) (count : Nat) :
    encode (List.replicate count mark) = List.replicate count (byteOf mark) := by
  induction count with
  | zero => rfl
  | succ count ih => rw [List.replicate_succ, encode_ascii ascii, ih, List.replicate_succ]

/-- The backslashes in front of the quote that closes a span are paired up. -/
theorem Piece.exists_of_endsQuoted {quote : Char} {tail : Text}
    (closed : endsQuoted quote tail = true) :
    ∃ inside count, tail = inside ++ List.replicate (2 * count) '\\' ++ [quote] ∧
      inside.getLast? ≠ some '\\' := by
  fun_induction endsQuoted quote tail with
  | case1 => contradiction
  | case2 c tail ih =>
    obtain ⟨inside, count, rfl, other⟩ := ih closed
    cases inside with
    | cons d more => exact ⟨'\\' :: c :: d :: more, count, rfl, by simpa using other⟩
    | nil =>
      by_cases pair : c = '\\'
      · subst pair
        exact ⟨[], count + 1, rfl, by simp⟩
      · exact ⟨['\\', c], count, rfl, by simpa using pair⟩
  | case3 tail _ =>
    rw [List.isEmpty_iff.mp closed]
    exact ⟨[], 0, rfl, by simp⟩
  | case4 c tail alone _ ih =>
    obtain ⟨inside, count, rfl, other⟩ := ih closed
    cases inside with
    | cons d more => exact ⟨c :: d :: more, count, rfl, by simpa using other⟩
    | nil =>
      refine ⟨[c], count, rfl, ?_⟩
      -- A backslash here would hide the character behind it.
      rintro ⟨⟩
      obtain ⟨d, more, same⟩ := List.exists_cons_of_ne_nil
        (List.append_ne_nil_of_right_ne_nil ([] ++ List.replicate (2 * count) '\\')
          (List.cons_ne_nil quote []))
      exact alone d more rfl same

theorem closedEvenly_encode (closed : Piece.isClosedSpan span = true) :
    ClosedEvenly (encode span) := by
  cases span with
  | nil => contradiction
  | cons quote tail =>
    rw [Piece.isClosedSpan, Bool.and_eq_true] at closed
    have ascii := ascii_of_isQuote closed.1
    obtain ⟨inside, count, rfl, other⟩ := Piece.exists_of_endsQuoted closed.2
    refine ⟨byteOf quote, encode inside, count, isQuoteByte_byteOf ascii ▸ closed.1, ?_,
      mt (getLast?_encode (by decide)).mp other⟩
    rw [encode_ascii ascii, encode_append, encode_append, encode_replicate (by decide),
      encode_ascii ascii, encode_nil]
    rfl

theorem lineOrBlock_encode {next : Option Char} (ends : (Piece.comment span).EndsBefore next) :
    LineOrBlock (encode span) := by
  rcases ends.comment_cases with ⟨line, rfl, inside, _⟩ | ⟨block, rfl, _⟩
  · refine .inl ⟨encode line, by rw [encode_ascii (by decide), encode_ascii (by decide)], ?_⟩
    intro feed
    have char := List.all_eq_true.mp inside '\n' (mem_of_mem_encode (by decide) feed)
    contradiction
  · exact .inr ⟨encode block, by rw [encode_ascii (by decide), encode_ascii (by decide)]⟩

end Bytes

section Pieces

variable {lead rest : Text} {first stop index : Nat}

/-- The span or comment in bytes is a stretch of the text. -/
theorem exists_span (kind : SpanKind)
    (member : kind.inBytes first stop ∈ bytePieces (lead ++ rest) lead.size) :
    ∃ front span back : Text, lead ++ rest = front ++ span ++ back ∧ first = front.size ∧
      stop = front.size + span.size ∧ (kind.piece span).EndsBefore back.head? := by
  rw [bytePieces_append] at member
  obtain ⟨front, span, back, found, rfl, rfl⟩ := exists_piece_of_mem member
  have text := congrArg textOf found
  rw [textOf_pieces, textOf_append, textOf_cons, text_piece] at text
  have aligned := found ▸ aligned_pieces rest
  exact ⟨lead ++ textOf front, span, textOf back, by simp [text], by simp, by simp,
    aligned.of_append_right.1⟩

theorem exists_code (member : .code index ∈ bytePieces (lead ++ rest) lead.size) :
    ∃ (front : Text) (c : Char) (back : Text), lead ++ rest = front ++ c :: back ∧
      front.size ≤ index ∧
      index < front.size + c.utf8Size ∧ (Piece.code c).EndsBefore back.head? := by
  obtain ⟨front, c, back, found, low, high⟩ := mem_bytePieces_iff.mp member
  have text := congrArg textOf found
  rw [textOf_pieces, textOf_append, textOf_cons] at text
  have aligned := found ▸ aligned_pieces rest
  exact ⟨lead ++ textOf front, c, textOf back, by simp [text, Piece.text], by simpa using low,
    by simpa using high, aligned.of_append_right.1⟩

theorem getElem?_encode_add (front back : Text) (index : Nat) :
    (encode (front ++ back))[front.size + index]? = (encode back)[index]? := by
  rw [encode_append, List.getElem?_append_right (by simp), length_encode, Nat.add_sub_cancel_left]

/-- Nothing opens in front of a byte of code. -/
theorem opensAt_code {c : Char} {front back : Text}
    (ends : (Piece.code c).EndsBefore back.head?) (inside : index < c.utf8Size) :
    opensAt (encode (front ++ c :: back)) (front.size + index) = false := by
  rcases encodeChar_cases c with ⟨low, single⟩ | ⟨_, high⟩
  · have one := congrArg List.length single
    rw [String.length_utf8EncodeChar, List.length_singleton] at one
    obtain rfl : index = 0 := by omega
    obtain ⟨plain, alone⟩ := ends.code
    have second : (encode (front ++ c :: back))[front.size + 1]? = (encode back).head? := by
      rw [getElem?_encode_add, encode_ascii low, List.getElem?_cons_succ, List.head?_eq_getElem?]
    rw [opensAt, Nat.add_zero, second, getElem?_encode, encode_ascii low, List.head?_cons,
      Option.any_some, isQuoteByte_byteOf low, plain, Bool.false_or, Bool.eq_false_iff, ne_eq,
      Bool.and_eq_true, Bool.or_eq_true, beq_iff_eq, beq_iff_eq, beq_iff_eq, Option.some.injEq,
      byteOf_inj low (by decide), head?_encode (by decide), head?_encode (by decide)]
    exact fun ⟨slash, mark⟩ => mark.elim (alone slash).1 (alone slash).2
  · obtain ⟨byte, here⟩ : ∃ byte, (String.utf8EncodeChar c)[index]? = some byte :=
      ⟨_, List.getElem?_eq_getElem (by rwa [String.length_utf8EncodeChar])⟩
    have above := List.all_eq_true.mp high byte (List.mem_of_getElem? here)
    have found : (encode (front ++ c :: back))[front.size + index]? = some byte := by
      rw [getElem?_encode_add, encode_cons, List.getElem?_append_left
        (by rwa [String.length_utf8EncodeChar]), here]
    have other : byte ≠ byteOf '/' := ne_byteOf_of_isHigh above (by decide)
    rw [opensAt, found, Option.any_some, isQuoteByte_of_isHigh above, Bool.false_or,
      beq_false_of_ne (mt Option.some.inj other), Bool.false_and]

theorem opensAt_quoted {front span back : Text} {next : Option Char}
    (ends : (Piece.quoted span).EndsBefore next) :
    opensAt (encode (front ++ span ++ back)) front.size = true := by
  obtain ⟨quote, tail, rfl, mark⟩ := ends.starts_quoted
  have ascii := ascii_of_isQuote mark
  rw [opensAt, List.append_assoc, getElem?_encode, List.cons_append, encode_ascii ascii,
    List.head?_cons, Option.any_some, isQuoteByte_byteOf ascii, mark, Bool.true_or]

theorem opensAt_comment {front span back : Text} {next : Option Char}
    (ends : (Piece.comment span).EndsBefore next) :
    opensAt (encode (front ++ span ++ back)) front.size = true := by
  rcases ends.comment_cases with ⟨line, rfl, _⟩ | ⟨block, rfl, _⟩ <;>
  · rw [opensAt, List.append_assoc, getElem?_encode_add, getElem?_encode, List.cons_append,
      List.cons_append, encode_ascii (by decide), encode_ascii (by decide)]
    rfl

/-- A span or comment begins exactly at the quotes and marks that are not inside of one. -/
theorem isSpan_eq_opensAt {piece : BytePiece}
    (member : piece ∈ bytePieces (lead ++ rest) lead.size) :
    piece.isSpan = opensAt (encode (lead ++ rest)) piece.start := by
  cases piece with
  | code index =>
    obtain ⟨front, c, back, text, low, high, ends⟩ := exists_code member
    obtain ⟨more, rfl⟩ := Nat.exists_eq_add_of_le low
    rw [text]
    exact (opensAt_code ends (by omega)).symm
  | quoted first stop =>
    obtain ⟨front, span, back, text, rfl, _, ends⟩ := exists_span (.quoted '"') member
    rw [text]
    exact (opensAt_quoted ends).symm
  | comment first stop =>
    obtain ⟨front, span, back, text, rfl, _, ends⟩ := exists_span .line member
    rw [text]
    exact (opensAt_comment ends).symm

theorem boundary_of_isSpan {piece : BytePiece} (span : piece.isSpan = true)
    (member : piece ∈ bytePieces (lead ++ rest) lead.size) :
    IsBoundary (lead ++ rest) piece.start ∧ IsBoundary (lead ++ rest) piece.stop := by
  have around (front middle back : Text) : IsBoundary (front ++ middle ++ back) front.size ∧
      IsBoundary (front ++ middle ++ back) (front.size + middle.size) :=
    ⟨⟨front, middle ++ back, by simp, rfl⟩, ⟨front ++ middle, back, by simp, by simp⟩⟩
  cases piece with
  | code index => contradiction
  | quoted first stop =>
    obtain ⟨front, middle, back, text, rfl, rfl, _⟩ := exists_span (.quoted '"') member
    exact text ▸ around front middle back
  | comment first stop =>
    obtain ⟨front, middle, back, text, rfl, rfl, _⟩ := exists_span .line member
    exact text ▸ around front middle back

/-- A span that ends before the text does is closed by its quote. -/
theorem closedEvenly_of_quoted (member : .quoted first stop ∈ bytePieces (lead ++ rest) lead.size)
    (before : stop < (lead ++ rest).size) :
    ClosedEvenly (sliceBytes (encode (lead ++ rest)) first stop) := by
  obtain ⟨front, span, back, text, rfl, rfl, ends⟩ := exists_span (.quoted '"') member
  rw [text] at before ⊢
  rw [sliceBytes_append]
  cases back with
  | nil => simp at before
  | cons next back => exact closedEvenly_encode (Piece.EndsBefore.quoted ends)

theorem lineOrBlock_of_comment
    (member : .comment first stop ∈ bytePieces (lead ++ rest) lead.size) :
    LineOrBlock (sliceBytes (encode (lead ++ rest)) first stop) := by
  obtain ⟨front, span, back, text, rfl, rfl, ends⟩ := exists_span .line member
  rw [text, sliceBytes_append]
  exact lineOrBlock_encode ends

end Pieces

/-- From a boundary on, the pieces tile the rest of the text, and spans and comments are what their
marks make of it. -/
theorem bytePieces_tile (text : Text) (start : Nat) (boundary : IsBoundary text start) :
    bytePieces text start = (piecesFrom text start).2.flatMap Placed.inBytes ∧
      Tiles start text.size (bytePieces text start) ∧
      (∀ piece ∈ bytePieces text start, piece.isSpan = opensAt (encode text) piece.start ∧
        (piece.isSpan = true → IsBoundary text piece.start ∧ IsBoundary text piece.stop ∧
          ∀ other ∈ bytePieces text start,
            ¬ (piece.start < other.start ∧ other.start < piece.stop))) ∧
      (∀ first stop, .quoted first stop ∈ bytePieces text start → stop < text.size →
        ClosedEvenly (sliceBytes (encode text) first stop)) ∧
      ∀ first stop, .comment first stop ∈ bytePieces text start →
        LineOrBlock (sliceBytes (encode text) first stop) := by
  have tiles := tiles_bytePieces boundary.le
  obtain ⟨lead, rest, rfl, rfl⟩ := boundary
  refine ⟨?_, tiles, fun piece member => ⟨isSpan_eq_opensAt member, fun span => ?_⟩,
    fun _ _ => closedEvenly_of_quoted, fun _ _ => lineOrBlock_of_comment⟩
  · rw [bytePieces_eq, piecesFrom, dropBytes_append]
    rfl
  · obtain ⟨first, last⟩ := boundary_of_isSpan span member
    exact ⟨first, last, fun other listed => tiles.not_inside member listed⟩

/-- A comment mark in a string and a quote in a comment begin nothing; an escaped backslash leaves
the quote behind it to close the string. -/
theorem bytePieces_tile_mixed :
    IsBoundary "é \"//\\\\\" /*/'*/ // x" 2 ∧
      bytePieces "é \"//\\\\\" /*/'*/ // x" 2 =
        [.code 2, .quoted 3 9, .code 9, .comment 10 16, .code 16, .comment 17 21] ∧
      Tiles 2 21 (bytePieces "é \"//\\\\\" /*/'*/ // x" 2) ∧
      ClosedEvenly (sliceBytes (encode "é \"//\\\\\" /*/'*/ // x") 3 9) ∧
      LineOrBlock (sliceBytes (encode "é \"//\\\\\" /*/'*/ // x") 10 16) := by
  have boundary : IsBoundary "é \"//\\\\\" /*/'*/ // x" 2 :=
    ⟨"é".toList, " \"//\\\\\" /*/'*/ // x".toList, by decide +kernel, by decide +kernel⟩
  have stated := bytePieces_tile "é \"//\\\\\" /*/'*/ // x" 2 boundary
  have whole : size "é \"//\\\\\" /*/'*/ // x" = 21 := by decide +kernel
  have tiles := stated.2.1
  rw [whole] at tiles
  refine ⟨boundary, by decide +kernel, tiles, ?_, ?_⟩
  · exact stated.2.2.2.1 3 9 (by decide +kernel) (by decide +kernel)
  · exact stated.2.2.2.2 10 16 (by decide +kernel)

end TypedClient
