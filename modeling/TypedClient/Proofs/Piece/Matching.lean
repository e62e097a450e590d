import Mathlib.Order.Bounds.Basic
import TypedClient.Proofs.Piece.Bytes
import TypedClient.Proofs.Piece.Comments

/-!
Brackets matched by counting. Main statement: the bracket that closes another one stands where, for
the first time, as many brackets of the pair have been closed as opened in code; and what stands
inside of quoted spans and comments makes no difference.
-/

namespace TypedClient

open Text Utf8

/-- The bracket that closes another one, in bytes. -/
def closingByte? (byte : UInt8) : Option UInt8 :=
  if byte = byteOf '{' then some (byteOf '}')
  else if byte = byteOf '[' then some (byteOf ']')
  else if byte = byteOf '(' then some (byteOf ')')
  else none

/-- Whether a piece is this byte of code and stands no further than `stop`. -/
def BytePiece.isUpTo (bytes : Bytes) (byte : UInt8) (stop : Nat) : BytePiece → Bool
  | code index => index ≤ stop && bytes[index]? == some byte
  | _ => false

/-- How often a byte is code from `start` through `stop`. -/
def codeCount (text : Text) (start stop : Nat) (byte : UInt8) : Nat :=
  (bytePieces text start).countP (BytePiece.isUpTo (encode text) byte stop)

/-- Whether `stop` is a byte of code through which as many brackets are closed as opened. -/
def Balanced (text : Text) (start : Nat) (opening closing : UInt8) (stop : Nat) : Prop :=
  .code stop ∈ bytePieces text start ∧
    codeCount text start stop opening = codeCount text start stop closing

section Depth

variable {opening closing : Char} {depth : Nat} {found inner after : List Piece}

/-- Behind no prefix of these pieces, more brackets than `depth` and the opened ones are closed. -/
def StaysOpen (opening closing : Char) (depth : Nat) (found : List Piece) : Prop :=
  ∀ front, front <+: found → front.count (.code closing) ≤ depth + front.count (.code opening)

theorem StaysOpen.nil : StaysOpen opening closing depth [] := by
  intro front opens
  rw [List.prefix_nil.mp opens]
  exact Nat.zero_le _

/-- The depth behind one more piece. -/
def depthBehind (opening closing : Char) (depth : Nat) (piece : Piece) : Nat :=
  if piece = .code opening then depth + 1 else if piece = .code closing then depth - 1 else depth

theorem StaysOpen.cons {piece : Piece} (other : closing ≠ opening)
    (inside : ¬ (piece = .code closing ∧ depth = 0))
    (later : StaysOpen opening closing (depthBehind opening closing depth piece) found) :
    StaysOpen opening closing depth (piece :: found) := by
  intro front opens
  cases front with
  | nil => exact Nat.zero_le _
  | cons first front =>
    obtain ⟨rfl, behind⟩ := List.cons_prefix_cons.mp opens
    have bound := later front behind
    have distinct : Piece.code closing ≠ .code opening := by simpa using other
    rw [List.count_cons, List.count_cons]
    unfold depthBehind at bound
    by_cases isOpening : first = .code opening
    · subst isOpening
      simp [Ne.symm distinct] at bound ⊢
      omega
    · by_cases isClosing : first = .code closing
      · subst isClosing
        simp [distinct] at bound inside ⊢
        omega
      · simpa [isOpening, isClosing] using bound

theorem splitClose_cons (other : closing ≠ opening) (depth : Nat) (piece : Piece)
    (rest : List Piece) :
    splitClose opening closing depth (piece :: rest) =
      if piece = .code closing ∧ depth = 0 then some ([], rest)
      else (splitClose opening closing (depthBehind opening closing depth piece) rest).map
        fun (inner, after) => (piece :: inner, after) := by
  cases piece with
  | code c =>
    have same : (c = closing ∧ c ≠ opening ∧ depth = 0) ↔
        (Piece.code c = .code closing ∧ depth = 0) := by
      rw [Piece.code.injEq]
      exact ⟨fun h => ⟨h.1, h.2.2⟩, fun h => ⟨h.1, h.1 ▸ other, h.2⟩⟩
    simp only [splitClose_code, same, depthBehind, Piece.code.injEq]
  | quoted span => simp [splitClose_quoted, depthBehind]
  | comment span => simp [splitClose_comment, depthBehind]

/-- Up to the bracket that is found, the pair stays open, and there it is closed. -/
theorem staysOpen_of_splitClose (other : closing ≠ opening)
    (split : splitClose opening closing depth found = some (inner, after)) :
    StaysOpen opening closing depth inner ∧
      inner.count (.code closing) = depth + inner.count (.code opening) := by
  induction found generalizing depth inner with
  | nil => contradiction
  | cons piece rest ih =>
    rw [splitClose_cons other] at split
    by_cases closes : piece = .code closing ∧ depth = 0
    · rw [if_pos closes] at split
      cases split
      exact ⟨.nil, by simp [closes.2]⟩
    · rw [if_neg closes] at split
      obtain ⟨⟨more, _⟩, later, same⟩ := Option.map_eq_some_iff.mp split
      cases same
      obtain ⟨stays, equal⟩ := ih later
      refine ⟨.cons other closes stays, ?_⟩
      have distinct : Piece.code closing ≠ .code opening := by simpa using other
      rw [List.count_cons, List.count_cons]
      unfold depthBehind at equal
      by_cases isOpening : piece = .code opening
      · subst isOpening
        simp [Ne.symm distinct] at equal ⊢
        omega
      · by_cases isClosing : piece = .code closing
        · subst isClosing
          simp [distinct] at equal closes ⊢
          omega
        · simpa [isOpening, isClosing] using equal

/-- Where no bracket is found, the pair stays open. -/
theorem staysOpen_of_unclosed (other : closing ≠ opening)
    (split : splitClose opening closing depth found = none) :
    StaysOpen opening closing depth found := by
  induction found generalizing depth with
  | nil => exact .nil
  | cons piece rest ih =>
    rw [splitClose_cons other] at split
    by_cases closes : piece = .code closing ∧ depth = 0
    · rw [if_pos closes] at split
      contradiction
    · rw [if_neg closes] at split
      exact .cons other closes (ih (Option.map_eq_none_iff.mp split))

end Depth

section Counting

variable {mark : Char} {stop : Nat}

theorem placeFrom_append (offset : Nat) (front back : List Piece) :
    placeFrom offset (front ++ back) =
      placeFrom offset front ++ placeFrom (offset + (textOf front).size) back := by
  induction front generalizing offset with
  | nil => rfl
  | cons piece rest ih =>
    rw [List.cons_append, placeFrom, placeFrom, List.cons_append, ih, textOf_cons, size_append,
      Nat.add_assoc]

/-- Of the bytes of one piece, as many are a certain ASCII character. -/
theorem countP_inBytes (stop : Nat) (ascii : mark.toNat < 128) (front : Text) (piece : Piece)
    (back : Text) :
    (Placed.inBytes ⟨piece, front.size, front.size + piece.text.size⟩).countP
        (BytePiece.isUpTo (encode (front ++ piece.text ++ back)) (byteOf mark) stop) =
      if piece = .code mark ∧ front.size ≤ stop then 1 else 0 := by
  cases piece with
  | quoted span => simp [Placed.inBytes, BytePiece.isUpTo]
  | comment span => simp [Placed.inBytes, BytePiece.isUpTo]
  | code c =>
    rw [Placed.inBytes, List.countP_map, Piece.text]
    have bytes (index : Nat) (inside : index < c.utf8Size) :
        (encode (front ++ [c] ++ back))[front.size + index]? = (String.utf8EncodeChar c)[index]? := by
      rw [List.append_assoc, encode_append, List.getElem?_append_right (by simp), length_encode,
        Nat.add_sub_cancel_left, List.singleton_append, encode_cons, List.getElem?_append_left]
      rwa [String.length_utf8EncodeChar]
    rcases encodeChar_cases c with ⟨low, single⟩ | ⟨above, high⟩
    · have one := congrArg List.length single
      rw [String.length_utf8EncodeChar, List.length_singleton] at one
      have byte := bytes 0 (by omega)
      rw [Nat.add_zero, single] at byte
      have here : (encode (front ++ [c] ++ back))[front.size]? = some (byteOf c) := byte
      rw [one, List.range'_one, List.countP_singleton, Function.comp, BytePiece.isUpTo, here]
      simp [byteOf_inj low ascii, and_comm]
    · have other : c ≠ mark := by
        rintro rfl
        omega
      have none : Piece.code c ≠ .code mark := by simpa using other
      rw [if_neg fun both => none both.1, List.countP_eq_zero]
      intro index listed counted
      obtain ⟨j, inside, rfl⟩ := List.mem_range'.mp listed
      rw [Nat.one_mul] at counted
      simp only [Function.comp, BytePiece.isUpTo, Bool.and_eq_true, beq_iff_eq] at counted
      rw [bytes j inside] at counted
      have member := List.mem_of_getElem? counted.2
      exact ne_byteOf_of_isHigh (List.all_eq_true.mp high _ member) ascii rfl

/-- Pieces up to the offset count as they are. -/
theorem countP_placeFrom_of_le (ascii : mark.toNat < 128) (front : Text) (found : List Piece)
    (back : Text) (within : front.size + (textOf found).size ≤ stop) :
    ((placeFrom front.size found).flatMap Placed.inBytes).countP
        (BytePiece.isUpTo (encode (front ++ textOf found ++ back)) (byteOf mark) stop) =
      found.count (.code mark) := by
  induction found generalizing front with
  | nil => rfl
  | cons piece rest ih =>
    have here := countP_inBytes stop ascii front piece (textOf rest ++ back)
    rw [textOf_cons, size_append] at within
    have later := ih (front ++ piece.text) (by rw [size_append]; omega)
    rw [size_append] at later
    rw [placeFrom, List.flatMap_cons, List.countP_append, textOf_cons, List.count_cons]
    simp only [List.append_assoc] at here later ⊢
    rw [here, later, Nat.add_comm]
    have reached : front.size ≤ stop := by omega
    simp [reached]

/-- Pieces behind the offset do not count. -/
theorem countP_placeFrom_of_lt (ascii : mark.toNat < 128) (front : Text) (found : List Piece)
    (past : stop < front.size) :
    ((placeFrom front.size found).flatMap Placed.inBytes).countP
        (BytePiece.isUpTo (encode (front ++ textOf found)) (byteOf mark) stop) = 0 := by
  induction found generalizing front with
  | nil => rfl
  | cons piece rest ih =>
    have here := countP_inBytes stop ascii front piece (textOf rest)
    have later := ih (front ++ piece.text) (by rw [size_append]; omega)
    rw [size_append] at later
    rw [placeFrom, List.flatMap_cons, List.countP_append, textOf_cons]
    simp only [List.append_assoc] at here later ⊢
    rw [here, later, if_neg fun both => absurd both.2 (Nat.not_le.mpr past)]

theorem bytePieces_append (lead rest : Text) :
    bytePieces (lead ++ rest) lead.size =
      (placeFrom lead.size (pieces rest)).flatMap Placed.inBytes := by
  rw [bytePieces, ← scanBytes_code lead.size, encode_append, ← length_encode lead,
    List.drop_left]

variable {lead rest : Text} {front back : List Piece} {c : Char}

/-- The bytes of code through a character count as the pieces do. -/
theorem codeCount_eq (ascii : mark.toNat < 128)
    (whole : pieces rest = front ++ .code c :: back)
    (low : lead.size + (textOf front).size ≤ stop)
    (high : stop < lead.size + (textOf front).size + c.utf8Size) :
    codeCount (lead ++ rest) lead.size stop (byteOf mark) =
      (front ++ [Piece.code c]).count (.code mark) := by
  have text : rest = textOf front ++ ([c] ++ textOf back) := by
    rw [← textOf_pieces rest, whole, textOf_append]
    rfl
  have before := countP_placeFrom_of_le ascii lead front ([c] ++ textOf back) low
  have here := countP_inBytes stop ascii (lead ++ textOf front) (.code c) (textOf back)
  have past : stop < (lead ++ textOf front ++ [c]).size := by
    simpa [Nat.add_assoc] using high
  have behind := countP_placeFrom_of_lt ascii (lead ++ textOf front ++ [c]) back past
  have reached : (lead ++ textOf front).size ≤ stop := by rwa [size_append]
  rw [size_append] at here reached
  rw [size_append, size_append, Nat.add_assoc] at behind
  rw [codeCount, bytePieces_append, whole, placeFrom_append, placeFrom, List.flatMap_append,
    List.flatMap_cons, List.countP_append, List.countP_append, List.count_append,
    List.count_singleton]
  simp only [text, Piece.text, List.append_assoc, Nat.add_assoc] at before here behind ⊢
  rw [before, here, behind]
  simp [reached]

theorem mem_bytePieces_iff :
    BytePiece.code stop ∈ bytePieces (lead ++ rest) lead.size ↔
      ∃ front c back, pieces rest = front ++ .code c :: back ∧
        lead.size + (textOf front).size ≤ stop ∧
        stop < lead.size + (textOf front).size + c.utf8Size := by
  rw [bytePieces_append]
  generalize lead.size = offset
  generalize pieces rest = found
  induction found generalizing offset with
  | nil => simp [placeFrom]
  | cons piece found ih =>
    rw [placeFrom, List.flatMap_cons, List.mem_append, ih]
    constructor
    · rintro (here | ⟨front, c, back, rfl, low, high⟩)
      · cases piece with
        | quoted span => simp [Placed.inBytes] at here
        | comment span => simp [Placed.inBytes] at here
        | code c =>
          obtain ⟨index, listed, same⟩ := List.mem_map.mp here
          cases same
          obtain ⟨j, inside, rfl⟩ := List.mem_range'.mp listed
          exact ⟨[], c, found, rfl, by simp, by simpa using inside⟩
      · refine ⟨piece :: front, c, back, rfl, ?_, ?_⟩
        · simpa [Nat.add_assoc] using low
        · simpa [Nat.add_assoc] using high
    · rintro ⟨front, c, back, whole, low, high⟩
      cases front with
      | nil =>
        cases whole
        refine .inl (List.mem_map_of_mem (List.mem_range'.mpr ⟨stop - offset, ?_, ?_⟩))
        · simp at low high
          omega
        · simp at low
          change stop = offset + 1 * (stop - offset)
          omega
      | cons first front =>
        cases whole
        refine .inr ⟨front, c, back, rfl, ?_, ?_⟩
        · simpa [Nat.add_assoc] using low
        · simpa [Nat.add_assoc] using high

end Counting

section Pair

variable {c closer : Char} {lead rest : Text} {inner after : List Piece} {stop : Nat}

/-- What is known of a bracket and the one that closes it. -/
theorem plain_of_closing? (pair : closing? c = some closer) :
    c.toNat < 128 ∧ closer.toNat < 128 ∧ closer ≠ c ∧ Piece.isInert c = true ∧
      c.utf8Size = 1 ∧ closer.utf8Size = 1 := by
  unfold closing? at pair
  split at pair <;> cases pair <;> decide

theorem pieces_bracket (pair : closing? c = some closer) (rest : Text) :
    pieces (c :: rest) = .code c :: pieces rest := by
  have inert := (plain_of_closing? pair).2.2.2.1
  exact pieces_append_code (show [c].all Piece.isInert = true by simp [inert]) rest

/-- As long as the pair stays open, fewer brackets are closed than opened. -/
theorem codeCount_lt (pair : closing? c = some closer) (stays : StaysOpen c closer 0 inner)
    (whole : pieces rest = inner ++ after)
    (member : .code stop ∈ bytePieces (lead ++ c :: rest) lead.size)
    (before : stop < lead.size + 1 + (textOf inner).size) :
    codeCount (lead ++ c :: rest) lead.size stop (byteOf closer) <
      codeCount (lead ++ c :: rest) lead.size stop (byteOf c) := by
  obtain ⟨opens, closes, other, _, one, _⟩ := plain_of_closing? pair
  obtain ⟨front, d, back, found, low, high⟩ := mem_bytePieces_iff.mp member
  rw [codeCount_eq closes found low high, codeCount_eq opens found low high]
  rw [pieces_bracket pair, whole] at found
  -- What is read up to here is the bracket and a prefix of the pieces in which the pair is open.
  have within : front ++ [.code d] <+: .code c :: inner := by
    have read : front ++ [.code d] <+: .code c :: (inner ++ after) :=
      ⟨back, by rw [found, List.append_assoc, List.singleton_append]⟩
    have open' : .code c :: inner <+: .code c :: (inner ++ after) := List.prefix_append _ _
    rcases List.prefix_or_prefix_of_prefix read open' with within | longer
    · exact within
    · rcases List.prefix_concat_iff.mp longer with same | past
      · exact same ▸ List.prefix_refl _
      · obtain ⟨more, rfl⟩ := past
        simp only [textOf_append, textOf_cons, Piece.text, size_append, size_cons, size_nil, one]
          at low
        omega
  have distinct : Piece.code c ≠ .code closer := by simpa using Ne.symm other
  obtain ⟨first, more, read⟩ : ∃ first more, front ++ [Piece.code d] = first :: more :=
    List.exists_cons_of_ne_nil (by simp)
  rw [read] at within ⊢
  obtain ⟨rfl, later⟩ := List.cons_prefix_cons.mp within
  have bound := stays more later
  rw [List.count_cons_of_ne distinct, List.count_cons_self]
  omega

/-- The bracket that is found is the first byte of code at which the pair balances. -/
theorem isLeast_balanced (lead : Text) (pair : closing? c = some closer)
    (split : splitClose c closer 0 (pieces rest) = some (inner, after)) :
    IsLeast {stop | Balanced (lead ++ c :: rest) lead.size (byteOf c) (byteOf closer) stop}
      (lead.size + 1 + (textOf inner).size) := by
  obtain ⟨opens, closes, other, _, one, oneMore⟩ := plain_of_closing? pair
  have whole := splitClose_append split
  obtain ⟨stays, equal⟩ := staysOpen_of_splitClose other split
  constructor
  · have found : pieces (c :: rest) = (.code c :: inner) ++ .code closer :: after := by
      rw [pieces_bracket pair, whole, List.cons_append]
    have low : lead.size + (textOf (.code c :: inner)).size ≤
        lead.size + 1 + (textOf inner).size := by
      simp [Piece.text, one, Nat.add_assoc]
    have high : lead.size + 1 + (textOf inner).size <
        lead.size + (textOf (.code c :: inner)).size + closer.utf8Size := by
      simp [Piece.text, one, oneMore, Nat.add_assoc]
    refine ⟨mem_bytePieces_iff.mpr ⟨_, _, _, found, low, high⟩, ?_⟩
    rw [codeCount_eq opens found low high, codeCount_eq closes found low high]
    have distinct : closer ≠ c := other
    simp [List.count_append, distinct, Ne.symm distinct, equal]
  · rintro stop ⟨member, balanced⟩
    by_contra! before
    exact absurd balanced (codeCount_lt pair stays whole member before).ne'

/-- Where no bracket is found, the pair balances nowhere. -/
theorem codeCount_lt_of_unclosed (pair : closing? c = some closer)
    (split : splitClose c closer 0 (pieces rest) = none)
    (member : .code stop ∈ bytePieces (lead ++ c :: rest) lead.size) :
    codeCount (lead ++ c :: rest) lead.size stop (byteOf closer) <
      codeCount (lead ++ c :: rest) lead.size stop (byteOf c) := by
  obtain ⟨_, _, other, _, one, _⟩ := plain_of_closing? pair
  refine codeCount_lt pair (staysOpen_of_unclosed other split) (List.append_nil _).symm member ?_
  obtain ⟨front, d, back, found, _, high⟩ := mem_bytePieces_iff.mp member
  have sizes := congrArg (fun found => (textOf found).size) found
  simp only [textOf_pieces, textOf_append, textOf_cons, Piece.text, size_append, size_cons,
    size_nil, one] at sizes ⊢
  omega

end Pair

section Opening

variable {c closer : Char} {lead rest : Text}

theorem closingByte?_byteOf (ascii : c.toNat < 128) :
    closingByte? (byteOf c) = (closing? c).map byteOf := by
  unfold closing?
  split
  · rfl
  · rfl
  · rfl
  · rename_i brace square round
    rw [closingByte?, if_neg (mt (byteOf_inj ascii (by decide)).mp brace),
      if_neg (mt (byteOf_inj ascii (by decide)).mp square),
      if_neg (mt (byteOf_inj ascii (by decide)).mp round)]
    rfl

theorem closingByte?_of_isHigh {byte : UInt8} (high : isHigh byte = true) :
    closingByte? byte = none := by
  have other (mark : Char) (ascii : mark.toNat < 128) : byte ≠ byteOf mark :=
    ne_byteOf_of_isHigh high ascii
  rw [closingByte?, if_neg (other _ (by decide)), if_neg (other _ (by decide)),
    if_neg (other _ (by decide))]

theorem dropBytes_append (lead rest : Text) : dropBytes lead.size (lead ++ rest) = (0, rest) := by
  induction lead with
  | nil => rw [List.nil_append, size_nil, dropBytes]
  | cons c lead ih =>
    have filled := c.utf8Size_pos
    obtain ⟨n, same⟩ : ∃ n, size (c :: lead) = n + 1 := ⟨size (c :: lead) - 1, by
      rw [size_cons]
      omega⟩
    rw [same, List.cons_append, dropBytes, ← same, size_cons, if_pos (Nat.le_add_right _ _),
      Nat.add_sub_cancel_left, ih]

/-- Behind an offset that cuts no character stand the bytes that the offset counts. -/
theorem exists_lead {offset : Nat} {text rest : Text} (dropped : dropBytes offset text = (0, rest))
    (filled : rest ≠ []) : ∃ lead, text = lead ++ rest ∧ lead.size = offset := by
  fun_induction dropBytes offset text with
  | case1 text =>
    cases dropped
    exact ⟨[], rfl, rfl⟩
  | case2 =>
    cases dropped
    contradiction
  | case3 n c more fits ih =>
    obtain ⟨lead, rfl, size⟩ := ih dropped
    refine ⟨c :: lead, rfl, ?_⟩
    rw [size_cons, size]
    omega
  | case4 n c more cut =>
    rw [Prod.mk.injEq] at dropped
    omega

theorem getElem?_encode (lead rest : Text) :
    (encode (lead ++ rest))[lead.size]? = (encode rest).head? := by
  rw [encode_append, List.getElem?_append_right (by simp), length_encode, Nat.sub_self,
    List.head?_eq_getElem?]

/-- What is found behind an opening bracket. -/
theorem closingOffset_append (pair : closing? c = some closer) :
    closingOffset (lead ++ c :: rest) lead.size =
      match splitClose c closer 0 (pieces rest) with
      | some (inner, _) => .ok (lead.size + 1 + (textOf inner).size)
      | none => .error (.unbalanced lead.size) := by
  rw [closingOffset, bracketedAt, dropBytes_append]
  simp only [pair]
  cases splitClose c closer 0 (pieces rest) <;> rfl

/-- The bytes of a character that opens no bracket do not begin with one that does. -/
theorem closingByte?_of_none (plain : closing? c = none) (rest : Text) :
    ∀ byte ∈ (encode (c :: rest)).head?, closingByte? byte = none := by
  intro byte found
  rcases encodeChar_cases c with ⟨ascii, _⟩ | ⟨_, high⟩
  · rw [encode_ascii ascii] at found
    cases found
    rw [closingByte?_byteOf ascii, plain]
    rfl
  · obtain ⟨first, more, encoded⟩ := exists_cons_encodeChar c
    rw [encode_cons, encoded] at found
    cases found
    rw [encoded, List.all_cons, Bool.and_eq_true] at high
    exact closingByte?_of_isHigh high.1

/-- An offset is that of an opening bracket, or there is no such byte and none is found. -/
theorem opening_cases (text : Text) (offset : Nat) :
    (∃ (lead : Text) (c closer : Char) (rest : Text),
        text = lead ++ c :: rest ∧ offset = lead.size ∧ closing? c = some closer ∧
        (encode text)[offset]? = some (byteOf c) ∧ closingByte? (byteOf c) = some (byteOf closer)) ∨
      ((∀ byte ∈ (encode text)[offset]?, closingByte? byte = none) ∧
        closingOffset text offset = .error (.notAnOpening offset)) := by
  obtain ⟨run, bytes, high, length⟩ := drop_encode offset text
  have here : (encode text)[offset]? = (run ++ encode (dropBytes offset text).2).head? := by
    rw [← bytes, List.head?_drop]
  obtain ⟨leftover, rest, dropped⟩ : ∃ leftover rest, dropBytes offset text = (leftover, rest) :=
    ⟨_, _, rfl⟩
  rw [dropped] at here length
  cases run with
  | cons first run =>
    obtain ⟨n, rfl⟩ : ∃ n, leftover = n + 1 := ⟨run.length, length.symm⟩
    rw [List.all_cons, Bool.and_eq_true] at high
    refine .inr ⟨?_, ?_⟩
    · rintro byte found
      rw [here] at found
      cases found
      exact closingByte?_of_isHigh high.1
    · rw [closingOffset, bracketedAt, dropped]
      rfl
  | nil =>
    obtain rfl : 0 = leftover := length
    rw [List.nil_append] at here
    cases rest with
    | nil =>
      refine .inr ⟨fun byte found => ?_, ?_⟩
      · rw [here] at found
        contradiction
      · rw [closingOffset, bracketedAt, dropped]
        rfl
    | cons c rest =>
      obtain ⟨lead, rfl, rfl⟩ := exists_lead dropped (List.cons_ne_nil _ _)
      cases pair : closing? c with
      | some closer =>
        obtain ⟨ascii, _⟩ := plain_of_closing? pair
        refine .inl ⟨lead, c, closer, rest, rfl, rfl, pair, ?_, ?_⟩
        · rw [here, encode_ascii ascii]
          rfl
        · rw [closingByte?_byteOf ascii, pair]
          rfl
      | none =>
        refine .inr ⟨?_, ?_⟩
        · rw [here]
          exact closingByte?_of_none pair rest
        · rw [closingOffset, bracketedAt, dropped]
          simp only [pair]
          rfl

/-- No bracket is found exactly if there is no opening one at the offset. -/
theorem closingOffset_notAnOpening_iff (text : Text) (offset : Nat) :
    closingOffset text offset = .error (.notAnOpening offset) ↔
      ∀ byte ∈ (encode text)[offset]?, closingByte? byte = none := by
  rcases opening_cases text offset with ⟨lead, c, closer, rest, rfl, rfl, pair, here, known⟩ |
    ⟨none, refused⟩
  · refine iff_of_false ?_ fun none => ?_
    · rw [closingOffset_append pair]
      split <;> exact nofun
    · rw [none _ here] at known
      contradiction
  · exact iff_of_true refused none

variable {text : Text} {offset stop : Nat} {opening closing : UInt8}

/-- The bracket that stands at the offset of an opening byte. -/
theorem opening_of_byte (here : (encode text)[offset]? = some opening)
    (known : closingByte? opening = some closing) :
    ∃ (lead : Text) (c closer : Char) (rest : Text), text = lead ++ c :: rest ∧
      offset = lead.size ∧ closing? c = some closer ∧ opening = byteOf c ∧
      closing = byteOf closer := by
  rcases opening_cases text offset with ⟨lead, c, closer, rest, rfl, rfl, pair, first, other⟩ |
    ⟨none, _⟩
  · cases here.symm.trans first
    cases known.symm.trans other
    exact ⟨lead, c, closer, rest, rfl, rfl, pair, rfl, rfl⟩
  · rw [none _ here] at known
    contradiction

/-- The bracket found is the first byte of code at which the pair balances. -/
theorem closingOffset_ok_iff (here : (encode text)[offset]? = some opening)
    (known : closingByte? opening = some closing) :
    closingOffset text offset = .ok stop ↔
      IsLeast {stop | Balanced text offset opening closing stop} stop := by
  obtain ⟨lead, c, closer, rest, rfl, rfl, pair, rfl, rfl⟩ := opening_of_byte here known
  rw [closingOffset_append pair]
  cases split : splitClose c closer 0 (pieces rest) with
  | some found =>
    have least := isLeast_balanced lead pair split
    exact ⟨fun same => Except.ok.inj same ▸ least,
      fun other => congrArg Except.ok (least.unique other)⟩
  | none =>
    refine iff_of_false nofun fun least => ?_
    have fewer := codeCount_lt_of_unclosed pair split least.1.1
    exact absurd least.1.2 fewer.ne'

theorem closingOffset_unbalanced_iff (here : (encode text)[offset]? = some opening)
    (known : closingByte? opening = some closing) :
    closingOffset text offset = .error (.unbalanced offset) ↔
      ¬ ∃ stop, Balanced text offset opening closing stop := by
  obtain ⟨lead, c, closer, rest, rfl, rfl, pair, rfl, rfl⟩ := opening_of_byte here known
  rw [closingOffset_append pair]
  cases split : splitClose c closer 0 (pieces rest) with
  | some found =>
    have least := isLeast_balanced lead pair split
    exact iff_of_false nofun fun none => none ⟨_, least.1⟩
  | none =>
    refine iff_of_true rfl ?_
    rintro ⟨stop, member, balanced⟩
    exact absurd balanced (codeCount_lt_of_unclosed pair split member).ne'

/-- Up to the bracket that is found, no more brackets are closed than opened. -/
theorem codeCount_le (here : (encode text)[offset]? = some opening)
    (known : closingByte? opening = some closing) (member : .code stop ∈ bytePieces text offset)
    (first : ∀ other, Balanced text offset opening closing other → stop ≤ other) :
    codeCount text offset stop closing ≤ codeCount text offset stop opening := by
  obtain ⟨lead, c, closer, rest, rfl, rfl, pair, rfl, rfl⟩ := opening_of_byte here known
  cases split : splitClose c closer 0 (pieces rest) with
  | some found =>
    have least := isLeast_balanced lead pair split
    rcases (first _ least.1).eq_or_lt with rfl | before
    · exact least.1.2.ge
    · have stays := (staysOpen_of_splitClose (plain_of_closing? pair).2.2.1 split).1
      exact (codeCount_lt pair stays (splitClose_append split) member before).le
  | none => exact (codeCount_lt_of_unclosed pair split member).le

end Opening

end TypedClient
