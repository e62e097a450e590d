import TypedClient.Proofs.Piece.Matching

/-!
Quoted spans and comments inside of brackets. Main statement: the bracket that closes another one is
the first at which the pair balances in code, and another text in a closed span or comment on the
way moves it by the difference of the two sizes.
-/

namespace TypedClient

open Text Utf8

/-- What a closed quoted span or comment is closed by. -/
inductive SpanKind
  | quoted (quote : Char)
  | line
  | block
  deriving DecidableEq, Repr

/-- The kind of a text that is one closed quoted span or one closed comment. -/
def spanKind? : Text → Option SpanKind
  | '/' :: '/' :: line => if line.all Piece.inLine then some .line else none
  | '/' :: '*' :: block => if Piece.endsBlock block then some .block else none
  | quote :: tail =>
    if Piece.isClosedSpan (quote :: tail) then some (.quoted quote) else none
  | [] => none

namespace SpanKind

def piece : SpanKind → Text → Piece
  | quoted _, span => .quoted span
  | line, span | block, span => .comment span

def inBytes : SpanKind → Nat → Nat → BytePiece
  | quoted _, start, stop => .quoted start stop
  | line, start, stop | block, start, stop => .comment start stop

end SpanKind

section Kinds

variable {kind : SpanKind} {span old new : Text} {next : Option Char}

theorem spanKind?_cases (known : spanKind? span = some kind) :
    (∃ line, span = '/' :: '/' :: line ∧ line.all Piece.inLine = true ∧ kind = .line) ∨
      (∃ block, span = '/' :: '*' :: block ∧ Piece.endsBlock block = true ∧ kind = .block) ∨
      ∃ quote tail, span = quote :: tail ∧ Piece.isClosedSpan span = true ∧
        kind = .quoted quote := by
  unfold spanKind? at known
  split at known
  · rename_i line
    obtain ⟨inside, same⟩ := Option.ite_none_right_eq_some.mp known
    exact .inl ⟨line, rfl, inside, (Option.some.inj same).symm⟩
  · rename_i block
    obtain ⟨closed, same⟩ := Option.ite_none_right_eq_some.mp known
    exact .inr (.inl ⟨block, rfl, closed, (Option.some.inj same).symm⟩)
  · rename_i quote tail _ _
    obtain ⟨closed, same⟩ := Option.ite_none_right_eq_some.mp known
    exact .inr (.inr ⟨quote, tail, rfl, closed, (Option.some.inj same).symm⟩)
  · contradiction

@[simp] theorem text_piece (kind : SpanKind) (span : Text) : (kind.piece span).text = span := by
  cases kind <;> rfl

theorem piece_ne_code (kind : SpanKind) (span : Text) (c : Char) : kind.piece span ≠ .code c := by
  cases kind <;> exact nofun

/-- Closed spans of one kind begin alike. -/
theorem head?_of_spanKind? (known : spanKind? old = some kind) (other : spanKind? new = some kind) :
    new.head? = old.head? := by
  rcases spanKind?_cases known with ⟨line, rfl, _, rfl⟩ | ⟨block, rfl, _, rfl⟩ |
    ⟨quote, tail, rfl, _, rfl⟩ <;>
  rcases spanKind?_cases other with ⟨line, rfl, _, same⟩ | ⟨block, rfl, _, same⟩ |
    ⟨mark, tail, rfl, _, same⟩ <;>
  cases same <;> rfl

/-- Where a closed span ends, another one of its kind does. -/
theorem endsBefore_of_spanKind? (known : spanKind? old = some kind)
    (other : spanKind? new = some kind) (ends : (kind.piece old).EndsBefore next) :
    (kind.piece new).EndsBefore next := by
  rcases spanKind?_cases other with ⟨line, rfl, inside, rfl⟩ | ⟨block, rfl, closed, rfl⟩ |
    ⟨quote, tail, rfl, closed, rfl⟩
  · rcases ends.comment_cases with ⟨_, _, _, stops⟩ | ⟨block, rfl, _⟩
    · exact Piece.endsBefore_line inside stops
    · rcases spanKind?_cases known with ⟨_, same, _, _⟩ | ⟨_, _, _, same⟩ | ⟨_, _, _, _, same⟩
      · cases same
      · cases same
      · cases same
  · exact Piece.endsBefore_block closed next
  · exact Piece.endsBefore_of_isClosedSpan closed next

end Kinds

section Spans

variable {kind : SpanKind} {before old new after lead : Text} {front back : List Piece}

/-- Another closed span of its kind stands in the place of one. -/
theorem pieces_swap (known : spanKind? old = some kind) (other : spanKind? new = some kind)
    (aligned : Aligned (front ++ kind.piece old :: back)) :
    Aligned (front ++ kind.piece new :: back) := by
  obtain ⟨ends, later⟩ := aligned.of_append_right
  refine aligned.of_append_left.append ⟨endsBefore_of_spanKind? known other ends, later⟩ ?_
  intro piece last
  obtain ⟨earlier, rfl⟩ := List.getLast?_eq_some_iff.mp last
  rw [List.append_assoc] at aligned
  have here : piece.EndsBefore (textOf (kind.piece old :: back)).head? :=
    aligned.of_append_right.1
  have filled (span : Text) (kept : spanKind? span = some kind) : span ≠ [] := by
    rintro rfl
    contradiction
  rw [textOf_cons, text_piece, head?_append_of_ne_nil (filled old known)] at here
  rwa [textOf_cons, text_piece, head?_append_of_ne_nil (filled new other),
    head?_of_spanKind? known other]

theorem piece_of_mem_inBytes {start stop : Nat} {placed : Placed}
    (member : kind.inBytes start stop ∈ placed.inBytes) :
    placed.piece = kind.piece placed.piece.text ∧ start = placed.start ∧ stop = placed.stop := by
  obtain ⟨piece, first, last⟩ := placed
  cases piece with
  | code c =>
    obtain ⟨_, _, same⟩ := List.mem_map.mp member
    cases kind <;> cases same
  | quoted span =>
    have same := List.mem_singleton.mp member
    cases kind <;> cases same
    exact ⟨rfl, rfl, rfl⟩
  | comment span =>
    have same := List.mem_singleton.mp member
    cases kind <;> cases same <;> exact ⟨rfl, rfl, rfl⟩

/-- A span or comment in bytes is a piece of the text. -/
theorem exists_piece_of_mem {start stop offset : Nat} {found : List Piece}
    (member : kind.inBytes start stop ∈ (placeFrom offset found).flatMap Placed.inBytes) :
    ∃ front span back, found = front ++ kind.piece span :: back ∧
      start = offset + (textOf front).size ∧ stop = start + span.size := by
  induction found generalizing offset with
  | nil => contradiction
  | cons piece rest ih =>
    rw [placeFrom, List.flatMap_cons, List.mem_append] at member
    rcases member with here | later
    · obtain ⟨same, rfl, rfl⟩ := piece_of_mem_inBytes here
      exact ⟨[], piece.text, rest, congrArg (· :: rest) same, rfl, rfl⟩
    · obtain ⟨front, span, back, rfl, starts, ends⟩ := ih later
      refine ⟨piece :: front, span, back, rfl, ?_, ends⟩
      rw [starts, textOf_cons, size_append, Nat.add_assoc]

theorem append_inj_of_size {front back other more : Text} (same : front ++ back = other ++ more)
    (sizes : front.size = other.size) : front = other ∧ back = more := by
  have cut := cutBytes?_append front back
  rw [same, sizes, cutBytes?_append] at cut
  cases cut
  exact ⟨rfl, rfl⟩

/-- A bracket is found behind another span as it is behind one. -/
theorem splitClose_swap {opening closing : Char} (distinct : closing ≠ opening) {x y : Piece}
    (span : ∀ c, x ≠ .code c) (swapped : ∀ c, y ≠ .code c) (depth : Nat)
    (front back : List Piece) :
    (splitClose opening closing depth (front ++ x :: back) = none ∧
        splitClose opening closing depth (front ++ y :: back) = none) ∨
      (∃ inner more, front = inner ++ .code closing :: more ∧
        splitClose opening closing depth (front ++ x :: back) = some (inner, more ++ x :: back) ∧
        splitClose opening closing depth (front ++ y :: back) = some (inner, more ++ y :: back)) ∨
      ∃ more rest,
        splitClose opening closing depth (front ++ x :: back) = some (front ++ x :: more, rest) ∧
        splitClose opening closing depth (front ++ y :: back) =
          some (front ++ y :: more, rest) := by
  induction front generalizing depth with
  | nil =>
    rw [List.nil_append, List.nil_append, splitClose_other (span _) (span _),
      splitClose_other (swapped _) (swapped _)]
    cases splitClose opening closing depth back with
    | none => exact .inl ⟨rfl, rfl⟩
    | some found => exact .inr (.inr ⟨found.1, found.2, rfl, rfl⟩)
  | cons piece front ih =>
    simp only [List.cons_append, splitClose_cons distinct]
    by_cases closes : piece = .code closing ∧ depth = 0
    · rw [if_pos closes, if_pos closes]
      exact .inr (.inl ⟨[], front, by rw [closes.1]; rfl, rfl, rfl⟩)
    · rw [if_neg closes, if_neg closes]
      rcases ih (depthBehind opening closing depth piece) with ⟨one, two⟩ |
        ⟨inner, more, rfl, one, two⟩ | ⟨more, rest, one, two⟩
      · exact .inl ⟨by rw [one]; rfl, by rw [two]; rfl⟩
      · exact .inr (.inl ⟨piece :: inner, more, rfl, by rw [one]; rfl, by rw [two]; rfl⟩)
      · exact .inr (.inr ⟨more, rest, by rw [one]; rfl, by rw [two]; rfl⟩)

/-- The bytes through the first one of a closed span do not tell which of its kind it is. -/
theorem getElem?_encode_swap {offset : Nat} (known : spanKind? old = some kind)
    (other : spanKind? new = some kind) (within : offset ≤ before.size) :
    (encode (before ++ new ++ after))[offset]? = (encode (before ++ old ++ after))[offset]? := by
  rcases within.eq_or_lt with rfl | inside
  · rw [List.append_assoc, List.append_assoc, getElem?_encode, getElem?_encode]
    have same := head?_of_spanKind? known other
    cases old with
    | nil => contradiction
    | cons c old =>
      obtain ⟨more, rfl⟩ := List.head?_eq_some_iff.mp same
      obtain ⟨first, bytes, encoded⟩ := exists_cons_encodeChar c
      rw [List.cons_append, List.cons_append, encode_cons, encode_cons, encoded]
      rfl
  · have long : offset < (encode before).length := by rwa [length_encode]
    rw [List.append_assoc, List.append_assoc, encode_append, encode_append before,
      List.getElem?_append_left long, List.getElem?_append_left long]

/-- A span among the bytes of a text stands among the pieces behind its opening bracket. -/
theorem exists_pieces_around {lead rest : Text} {c closer : Char} (pair : closing? c = some closer)
    (text : before ++ old ++ after = lead ++ c :: rest)
    (member : kind.inBytes before.size (before.size + old.size) ∈
      bytePieces (lead ++ c :: rest) lead.size) :
    ∃ front back, pieces rest = front ++ kind.piece old :: back ∧
      before = lead ++ textOf (.code c :: front) ∧ after = textOf back := by
  rw [bytePieces_append] at member
  obtain ⟨front, span, back, found, starts, ends⟩ := exists_piece_of_mem member
  rw [pieces_bracket pair] at found
  cases front with
  | nil => exact absurd (List.cons.inj found).1.symm (piece_ne_code kind span c)
  | cons first front =>
    obtain rfl := (List.cons.inj found).1
    have whole : pieces rest = front ++ kind.piece span :: back := (List.cons.inj found).2
    have opened (found : List Piece) : textOf (.code c :: found) = c :: textOf found := rfl
    have parts : before ++ (old ++ after) =
        lead ++ textOf (.code c :: front) ++ (span ++ textOf back) := by
      rw [← List.append_assoc, text, ← textOf_pieces rest, whole]
      simp [opened]
    obtain ⟨rfl, behind⟩ := append_inj_of_size parts (by rw [starts, size_append])
    obtain ⟨rfl, rfl⟩ := append_inj_of_size behind (Nat.add_left_cancel ends)
    exact ⟨front, back, whole, rfl, rfl⟩

/-- Another closed span of its kind in the place of one moves the bracket that is found behind it by
the difference of the two sizes, and nothing else. -/
theorem closingOffset_swap {offset : Nat} (known : spanKind? old = some kind)
    (other : spanKind? new = some kind)
    (member : kind.inBytes before.size (before.size + old.size) ∈
      bytePieces (before ++ old ++ after) offset) :
    closingOffset (before ++ new ++ after) offset =
      (closingOffset (before ++ old ++ after) offset).map fun stop =>
        if stop < before.size then stop else stop - old.size + new.size := by
  rcases opening_cases (before ++ old ++ after) offset with
    ⟨lead, c, closer, rest, text, rfl, pair, _⟩ | ⟨none, refused⟩
  · obtain ⟨_, _, distinct, _, one, _⟩ := plain_of_closing? pair
    rw [text] at member
    obtain ⟨front, back, whole, rfl, rfl⟩ := exists_pieces_around pair text member
    have opened (found : List Piece) : textOf (.code c :: found) = c :: textOf found := rfl
    have scanned : pieces (textOf (front ++ kind.piece new :: back)) =
        front ++ kind.piece new :: back :=
      pieces_textOf (pieces_swap known other (whole ▸ aligned_pieces rest))
    have swapped : lead ++ textOf (.code c :: front) ++ new ++ textOf back =
        lead ++ c :: textOf (front ++ kind.piece new :: back) := by
      simp [opened]
    rw [text, swapped, closingOffset_append pair, closingOffset_append pair, scanned, whole]
    rcases splitClose_swap distinct (piece_ne_code kind old) (piece_ne_code kind new) 0 front
      back with ⟨here, there⟩ | ⟨inner, more, rfl, here, there⟩ | ⟨more, after, here, there⟩
    · rw [here, there]
      rfl
    · rw [here, there]
      have before : lead.size + 1 + (textOf inner).size <
          (lead ++ textOf (.code c :: (inner ++ .code closer :: more))).size := by
        simp [opened, one, Piece.text]
        omega
      exact congrArg Except.ok (if_pos before).symm
    · rw [here, there]
      have behind : ¬ lead.size + 1 + (textOf (front ++ kind.piece old :: more)).size <
          (lead ++ textOf (.code c :: front)).size := by
        simp [opened, one]
        omega
      refine congrArg Except.ok ((if_neg behind).trans ?_).symm
      simp
      omega
  · have within : offset ≤ before.size := by
      rw [bytePieces_eq, List.mem_append] at member
      rcases member with leftover | later
      · obtain ⟨_, _, same⟩ := List.mem_map.mp leftover
        cases kind <;> cases same
      · obtain ⟨_, _, _, _, starts, _⟩ := exists_piece_of_mem later
        omega
    rw [refused, (closingOffset_notAnOpening_iff _ offset).mpr]
    · rfl
    · rwa [getElem?_encode_swap known other within]

end Spans

/-- A closed span by itself is scanned as one piece of its kind. -/
theorem pieces_of_spanKind? {kind : SpanKind} {span : Text} (known : spanKind? span = some kind) :
    pieces span = [kind.piece span] := by
  have alone : Aligned [kind.piece span] := by
    refine ⟨?_, trivial⟩
    rcases spanKind?_cases known with ⟨line, rfl, inside, rfl⟩ | ⟨block, rfl, closed, rfl⟩ |
      ⟨quote, tail, rfl, closed, rfl⟩
    · exact Piece.endsBefore_line inside rfl
    · exact Piece.endsBefore_block closed none
    · exact Piece.endsBefore_of_isClosedSpan closed none
  have scanned := pieces_textOf alone
  rwa [textOf_cons, text_piece, textOf_nil, List.append_nil] at scanned

/-- No bracket is found where none opens; otherwise the first byte of code at which the pair
balances is found, and up to there no more brackets are closed than opened. What stands inside of a
closed span or comment moves that byte by the difference of the sizes, and nothing else. -/
theorem closingOffset_exact_opaque (text : Text) (offset : Nat) :
    (closingOffset text offset = .error (.notAnOpening offset) ↔
        ∀ byte ∈ (encode text)[offset]?, closingByte? byte = none) ∧
      (∀ opening closing, (encode text)[offset]? = some opening →
        closingByte? opening = some closing →
        (∀ stop, closingOffset text offset = .ok stop ↔
            IsLeast {stop | Balanced text offset opening closing stop} stop) ∧
          (closingOffset text offset = .error (.unbalanced offset) ↔
            ¬ ∃ stop, Balanced text offset opening closing stop) ∧
          ∀ stop, .code stop ∈ bytePieces text offset →
            (∀ other, Balanced text offset opening closing other → stop ≤ other) →
            codeCount text offset stop closing ≤ codeCount text offset stop opening) ∧
      ∀ kind before old new after, text = before ++ old ++ after →
        spanKind? old = some kind → spanKind? new = some kind →
        kind.inBytes before.size (before.size + old.size) ∈ bytePieces text offset →
        closingOffset (before ++ new ++ after) offset =
          (closingOffset text offset).map fun stop =>
            if stop < before.size then stop else stop - old.size + new.size := by
  refine ⟨closingOffset_notAnOpening_iff text offset, ?_, ?_⟩
  · intro opening closing here known
    exact ⟨fun _ => closingOffset_ok_iff here known, closingOffset_unbalanced_iff here known,
      fun _ member first => codeCount_le here known member first⟩
  · rintro kind before old new after rfl known other member
    exact closingOffset_swap known other member

/-- A bracket in a string closes nothing, and a longer string moves the bracket that does. -/
theorem closingOffset_around_string :
    IsLeast {stop | Balanced "\x7b a: \"\x7d\" \x7d" 0 (byteOf '{') (byteOf '}') stop} 9 ∧
      codeCount "\x7b a: \"\x7d\" \x7d" 0 9 (byteOf '}') ≤
        codeCount "\x7b a: \"\x7d\" \x7d" 0 9 (byteOf '{') ∧
      closingOffset "\x7b a: \"\\\"\x7b\" \x7d" 0 = .ok 11 := by
  have stated := closingOffset_exact_opaque "\x7b a: \"\x7d\" \x7d" 0
  have found : closingOffset "\x7b a: \"\x7d\" \x7d" 0 = .ok 9 := by decide +kernel
  have matched := stated.2.1 (byteOf '{') (byteOf '}') (by decide +kernel) (by decide +kernel)
  have least := (matched.1 9).mp found
  refine ⟨least, matched.2.2 9 least.1.1 fun other balanced => least.2 balanced, ?_⟩
  have moved := stated.2.2 (.quoted '"') "\x7b a: " "\"\x7d\"" "\"\\\"\x7b\"" " \x7d" rfl
    (by decide +kernel) (by decide +kernel) (by decide +kernel)
  rw [found] at moved
  exact moved

end TypedClient
