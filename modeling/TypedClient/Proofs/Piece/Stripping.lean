import TypedClient.Proofs.Piece.Bytes
import TypedClient.Proofs.Piece.Comments

/-!
What is left of a text without its comments, in bytes. Main statement: the bytes that are collected
from the pieces of a text are those of the text without its comments, and scanning them again gives
the same spans and code, with a space for every block comment.
-/

namespace TypedClient

open Text Utf8

/-- The bytes from `start` to in front of `stop`. -/
def sliceBytes (bytes : Bytes) (start stop : Nat) : Bytes := (bytes.drop start).take (stop - start)

namespace BytePiece

/-- Whether a comment that begins here is a block. -/
def isBlockAt (bytes : Bytes) (start : Nat) : Bool := bytes[start + 1]? == some (byteOf '*')

/-- The bytes of a piece that stay when comments are removed. -/
def kept (bytes : Bytes) : BytePiece → Bytes
  | code index => bytes[index]?.toList
  | quoted start stop => sliceBytes bytes start stop
  | comment start _ => if isBlockAt bytes start then [byteOf ' '] else []

/-- The bytes of a piece that are code when comments are removed. -/
def keptCode (bytes : Bytes) : BytePiece → Bytes
  | code index => bytes[index]?.toList
  | quoted _ _ => []
  | comment start _ => if isBlockAt bytes start then [byteOf ' '] else []

def codeByte (bytes : Bytes) : BytePiece → Bytes
  | code index => bytes[index]?.toList
  | _ => []

def span (bytes : Bytes) : BytePiece → List Bytes
  | quoted start stop => [sliceBytes bytes start stop]
  | _ => []

def isComment : BytePiece → Bool
  | comment _ _ => true
  | _ => false

end BytePiece

namespace Piece

def codeBytes : Piece → Bytes
  | code c => encode [c]
  | _ => []

def spanBytes : Piece → List Bytes
  | quoted span => [encode span]
  | _ => []

def keptCode : Piece → Bytes
  | code c => encode [c]
  | quoted _ => []
  | comment span => encode (comment span).withoutComment

end Piece

/-- The bytes that are collected from the pieces of a text. -/
def collectedBytes (text : Text) : Bytes :=
  (bytePieces text 0).flatMap (BytePiece.kept (encode text))

/-- The bytes of code of a text in order. -/
def codeBytes (text : Text) : Bytes :=
  (bytePieces text 0).flatMap (BytePiece.codeByte (encode text))

/-- The quoted spans of a text in order, byte for byte. -/
def quotedSpans (text : Text) : List Bytes :=
  (bytePieces text 0).flatMap (BytePiece.span (encode text))

section Reading

variable {β : Type} {piece : Piece}

theorem sliceBytes_append (front span back : Text) :
    sliceBytes (encode (front ++ span ++ back)) front.size (front.size + span.size) =
      encode span := by
  rw [sliceBytes, Nat.add_sub_cancel_left, ← length_encode front, ← length_encode span]
  simp

theorem flatMap_range' (bytes : Bytes) (start count : Nat) :
    (List.range' start count).flatMap (fun index => bytes[index]?.toList) =
      (bytes.drop start).take count := by
  induction count generalizing start with
  | zero => rfl
  | succ count ih =>
    rw [List.range'_succ, List.flatMap_cons, ih]
    cases here : bytes[start]? with
    | none =>
      have past := List.getElem?_eq_none_iff.mp here
      simp [List.drop_eq_nil_of_le past, List.drop_eq_nil_of_le (Nat.le_succ_of_le past)]
    | some byte =>
      obtain ⟨inside, rfl⟩ := List.getElem?_eq_some_iff.mp here
      rw [List.drop_eq_getElem_cons inside]
      rfl

/-- What a reader makes of the bytes of a text, if it makes of each piece what it is where the
piece stands. -/
theorem flatMap_bytePieces {read : Bytes → BytePiece → List β} {made : Piece → List β}
    {text : Text} (each : ∀ front piece back, piece ∈ pieces text →
      (Placed.inBytes ⟨piece, front.size, front.size + piece.text.size⟩).flatMap
          (read (encode (front ++ piece.text ++ back))) = made piece) :
    (bytePieces text 0).flatMap (read (encode text)) = (pieces text).flatMap made := by
  have along (front : Text) (found : List Piece) (inside : found ⊆ pieces text) :
      ((placeFrom front.size found).flatMap Placed.inBytes).flatMap
        (read (encode (front ++ textOf found))) = found.flatMap made := by
    induction found generalizing front with
    | nil => rfl
    | cons piece rest ih =>
      rw [List.cons_subset] at inside
      have later := ih (front ++ piece.text) inside.2
      have here := each front piece (textOf rest) inside.1
      rw [size_append] at later
      rw [placeFrom, List.flatMap_cons, List.flatMap_append, List.flatMap_cons, textOf_cons,
        ← List.append_assoc, here, later]
  have whole := along [] (pieces text) (List.Subset.refl _)
  rwa [List.nil_append, textOf_pieces, size_nil, ← bytePieces_zero] at whole

/-- The bytes of a character of code. -/
theorem flatMap_inBytes_code {read : Bytes → BytePiece → Bytes}
    (code : ∀ bytes index, read bytes (.code index) = bytes[index]?.toList) (front : Text) (c : Char)
    (back : Text) (stop : Nat) :
    (Placed.inBytes ⟨.code c, front.size, stop⟩).flatMap
        (read (encode (front ++ [c] ++ back))) = encode [c] := by
  have bytes := flatMap_range' (encode (front ++ [c] ++ back)) front.size c.utf8Size
  have slice := sliceBytes_append front [c] back
  rw [sliceBytes, Nat.add_sub_cancel_left] at slice
  rw [Placed.inBytes, List.flatMap_map]
  simp only [code]
  exact bytes.trans slice

theorem isBlockAt_append (front back : Text) {c d : Char} {rest : Text} (first : c.toNat < 128)
    (second : d.toNat < 128) :
    BytePiece.isBlockAt (encode (front ++ (c :: d :: rest) ++ back)) front.size =
      decide (d = '*') := by
  have byte : (encode (front ++ (c :: d :: rest) ++ back))[front.size + 1]? = some (byteOf d) := by
    rw [List.append_assoc, encode_append, List.getElem?_append_right (by simp), length_encode,
      Nat.add_sub_cancel_left, List.cons_append, List.cons_append, encode_ascii first,
      encode_ascii second]
    rfl
  rw [BytePiece.isBlockAt, byte, Bool.eq_iff_iff, beq_iff_eq, decide_eq_true_eq, Option.some.injEq,
    byteOf_inj second (by decide)]

/-- A comment of a text is a block exactly if it leaves a space behind. -/
theorem space_of_comment {text span : Text} (member : .comment span ∈ pieces text)
    (front back : Text) :
    (if BytePiece.isBlockAt (encode (front ++ span ++ back)) front.size then [byteOf ' '] else []) =
      encode (Piece.comment span).withoutComment := by
  obtain ⟨before, after, whole⟩ := List.append_of_mem member
  have aligned := aligned_pieces text
  rw [whole] at aligned
  rcases aligned.of_append_right.1.comment_cases with ⟨line, rfl, _⟩ | ⟨block, rfl, _⟩
  · rw [isBlockAt_append front back (by decide) (by decide)]
    rfl
  · rw [isBlockAt_append front back (by decide) (by decide)]
    rfl

end Reading

section Stripped

variable (text : Text)

/-- The bytes that are collected are those of the text without its comments. -/
theorem collectedBytes_eq : collectedBytes text = encode (stripComments text) := by
  have each : collectedBytes text =
      (pieces text).flatMap fun piece => encode piece.withoutComment := by
    refine flatMap_bytePieces fun front piece back member => ?_
    cases piece with
    | code c => exact flatMap_inBytes_code (fun _ _ => rfl) front c back _
    | quoted span =>
      rw [Placed.inBytes, List.flatMap_singleton]
      exact sliceBytes_append front span back
    | comment span =>
      rw [Placed.inBytes, List.flatMap_singleton]
      exact space_of_comment member front back
  rw [each, stripComments, encode, List.flatMap_assoc]
  rfl

theorem codeBytes_eq :
    codeBytes text = (pieces text).flatMap Piece.codeBytes := by
  refine flatMap_bytePieces fun front piece back member => ?_
  cases piece with
  | code c => exact flatMap_inBytes_code (fun _ _ => rfl) front c back _
  | quoted span => rfl
  | comment span => rfl

theorem quotedSpans_eq :
    quotedSpans text = (pieces text).flatMap Piece.spanBytes := by
  refine flatMap_bytePieces fun front piece back member => ?_
  cases piece with
  | code c =>
    rw [Placed.inBytes, List.flatMap_map]
    exact List.flatMap_eq_nil_iff.mpr fun _ _ => rfl
  | quoted span =>
    rw [Placed.inBytes, List.flatMap_singleton]
    exact congrArg (fun bytes => [bytes]) (sliceBytes_append front span back)
  | comment span => rfl

/-- The code that stays, with a space for every block comment. -/
theorem keptCode_eq :
    (bytePieces text 0).flatMap (BytePiece.keptCode (encode text)) =
      (pieces text).flatMap Piece.keptCode := by
  refine flatMap_bytePieces fun front piece back member => ?_
  cases piece with
  | code c => exact flatMap_inBytes_code (fun _ _ => rfl) front c back _
  | quoted span => rfl
  | comment span =>
    rw [Placed.inBytes, List.flatMap_singleton]
    exact space_of_comment member front back

theorem codeBytes_stripComments :
    codeBytes (stripComments text) =
      (bytePieces text 0).flatMap (BytePiece.keptCode (encode text)) := by
  rw [codeBytes_eq, keptCode_eq, pieces_stripComments, List.flatMap_assoc]
  refine List.flatMap_congr fun piece _ => ?_
  cases piece with
  | code c => exact List.flatMap_singleton Piece.codeBytes (.code c)
  | quoted span => rfl
  | comment span =>
    have left := textOf_flatMap_uncommented [.comment span]
    rw [List.flatMap_singleton, List.flatMap_singleton] at left
    rw [Piece.keptCode, ← left]
    rcases uncommented_comment span with space | none
    · rw [space]
      rfl
    · rw [none]
      rfl

theorem quotedSpans_stripComments : quotedSpans (stripComments text) = quotedSpans text := by
  rw [quotedSpans_eq, quotedSpans_eq, pieces_stripComments, List.flatMap_assoc]
  refine List.flatMap_congr fun piece _ => ?_
  cases piece with
  | code c => rfl
  | quoted span => rfl
  | comment span =>
    rcases uncommented_comment span with space | none
    · rw [space]
      rfl
    · rw [none]
      rfl

theorem piece_mem_of_mem_placeFrom {placed : Placed} {offset : Nat} {found : List Piece}
    (member : placed ∈ placeFrom offset found) : placed.piece ∈ found := by
  induction found generalizing offset with
  | nil => contradiction
  | cons piece rest ih =>
    rcases List.mem_cons.mp member with rfl | later
    · exact List.mem_cons_self
    · exact List.mem_cons_of_mem piece (ih later)

theorem isComment_stripComments {piece : BytePiece}
    (member : piece ∈ bytePieces (stripComments text) 0) : piece.isComment = false := by
  rw [bytePieces_zero] at member
  obtain ⟨⟨whole, start, stop⟩, listed, inside⟩ := List.mem_flatMap.mp member
  have found := piece_mem_of_mem_placeFrom listed
  rw [pieces_stripComments] at found
  cases whole with
  | code c =>
    obtain ⟨index, _, rfl⟩ := List.mem_map.mp inside
    rfl
  | quoted span =>
    rw [List.mem_singleton.mp inside]
    rfl
  | comment span =>
    obtain ⟨first, _, left⟩ := List.mem_flatMap.mp found
    cases first with
    | code c => exact nomatch List.mem_singleton.mp left
    | quoted span => exact nomatch List.mem_singleton.mp left
    | comment first =>
      rcases uncommented_comment first with space | none
      · rw [space] at left
        exact nomatch List.mem_singleton.mp left
      · rw [none] at left
        contradiction

theorem stripComments_twice : stripComments (stripComments text) = stripComments text := by
  have aligned := aligned_pieces text
  have again : Aligned (withoutComments (pieces text)) := aligned.uncommented
  have once : stripComments text = textOf (withoutComments (pieces text)) := by
    rw [← stripComments_textOf aligned, textOf_pieces]
  rw [once, stripComments_textOf again, withoutComments_twice]

end Stripped

/-- Removing comments is faithful and done at once. -/
theorem stripComments_faithful (text : Text) :
    (∀ piece ∈ bytePieces (stripComments text) 0, piece.isComment = false) ∧
      quotedSpans (stripComments text) = quotedSpans text ∧
      codeBytes (stripComments text) =
        (bytePieces text 0).flatMap (BytePiece.keptCode (encode text)) ∧
      stripComments (stripComments text) = stripComments text ∧
      collectedBytes text = encode (stripComments text) ∧
      decode (collectedBytes text) = .ok (stripComments text) := by
  refine ⟨fun piece => isComment_stripComments text, quotedSpans_stripComments text,
    codeBytes_stripComments text, stripComments_twice text, collectedBytes_eq text, ?_⟩
  rw [collectedBytes_eq, decode_encode]

end TypedClient
