import TypedClient.Piece.Offset
import TypedClient.Proofs.Piece.Alignment
import TypedClient.Proofs.Text.Utf8

/-!
Pieces found byte by byte. A reader of bytes goes through five states, and a backslash hides the one
byte behind it. Main statement: on the bytes of a text it finds the pieces of the text.
-/

namespace TypedClient

open Text Utf8

/-- Where a reader of bytes stands: in code, in a quoted span, in one right behind a backslash, or
in a comment. -/
inductive ScanState
  | code
  | quoted (quote : UInt8)
  | escaped (quote : UInt8)
  | line
  | block
  deriving DecidableEq, Repr

/-- A byte of code, or a quoted span or comment from its first byte to behind its last one. -/
inductive BytePiece
  | code (index : Nat)
  | quoted (start stop : Nat)
  | comment (start stop : Nat)
  deriving DecidableEq, Repr

/-- The byte of an ASCII character. -/
def byteOf (c : Char) : UInt8 := UInt8.ofNat c.toNat

def isQuoteByte (byte : UInt8) : Bool :=
  byte == byteOf '"' || byte == byteOf '\'' || byte == byteOf '\x60'

/-- The pieces of bytes that begin at the offset `here`; outside of code, a piece has been open
since `start`. -/
def scanBytes (state : ScanState) (start here : Nat) : Bytes → List BytePiece
  | [] =>
    match state with
    | .code => []
    | .quoted _ | .escaped _ => [.quoted start here]
    | .line | .block => [.comment start here]
  | byte :: rest =>
    match state with
    | .code =>
      if isQuoteByte byte then scanBytes (.quoted byte) here (here + 1) rest
      else
        match byte == byteOf '/', rest with
        | true, second :: more =>
          if second = byteOf '/' then scanBytes .line here (here + 2) more
          else if second = byteOf '*' then scanBytes .block here (here + 2) more
          else .code here :: scanBytes .code (here + 1) (here + 1) (second :: more)
        | _, rest => .code here :: scanBytes .code (here + 1) (here + 1) rest
    | .quoted quote =>
      if byte = byteOf '\\' then scanBytes (.escaped quote) start (here + 1) rest
      else if byte = quote then .quoted start (here + 1) :: scanBytes .code (here + 1) (here + 1) rest
      else scanBytes (.quoted quote) start (here + 1) rest
    | .escaped quote => scanBytes (.quoted quote) start (here + 1) rest
    | .line =>
      if byte = byteOf '\n' then
        .comment start here :: .code here :: scanBytes .code (here + 1) (here + 1) rest
      else scanBytes .line start (here + 1) rest
    | .block =>
      match byte == byteOf '*', rest with
      | true, second :: more =>
        if second = byteOf '/' then
          .comment start (here + 2) :: scanBytes .code (here + 2) (here + 2) more
        else scanBytes .block start (here + 1) (second :: more)
      | _, rest => scanBytes .block start (here + 1) rest

section Bytes

variable {c mark : Char} {byte : UInt8} {run rest : Bytes} {start here : Nat}

theorem toNat_byteOf (ascii : mark.toNat < 128) : (byteOf mark).toNat = mark.toNat := by
  rw [byteOf, UInt8.toNat_ofNat']
  omega

theorem byteOf_inj (ascii : c.toNat < 128) (other : mark.toNat < 128) :
    byteOf c = byteOf mark ↔ c = mark := by
  refine ⟨fun same => ?_, fun same => same ▸ rfl⟩
  have codes := congrArg UInt8.toNat same
  rw [toNat_byteOf ascii, toNat_byteOf other] at codes
  rw [← Char.ofNat_toNat c, codes, Char.ofNat_toNat]

theorem ne_byteOf_of_isHigh (high : isHigh byte = true) (ascii : mark.toNat < 128) :
    byte ≠ byteOf mark := by
  rintro rfl
  rw [isHigh, decide_eq_true_eq, toNat_byteOf ascii] at high
  omega

theorem ascii_of_isQuote (quote : Piece.isQuote mark = true) : mark.toNat < 128 := by
  simp only [Piece.isQuote, Bool.or_eq_true, beq_iff_eq] at quote
  rcases quote with (rfl | rfl) | rfl <;> decide

theorem isQuoteByte_byteOf (ascii : c.toNat < 128) : isQuoteByte (byteOf c) = Piece.isQuote c := by
  rw [Bool.eq_iff_iff]
  simp only [isQuoteByte, Piece.isQuote, Bool.or_eq_true, beq_iff_eq]
  rw [byteOf_inj ascii (by decide), byteOf_inj ascii (by decide), byteOf_inj ascii (by decide)]

theorem isQuoteByte_of_isHigh (high : isHigh byte = true) : isQuoteByte byte = false := by
  have other (mark : Char) (ascii : mark.toNat < 128) : (byte == byteOf mark) = false :=
    beq_false_of_ne (ne_byteOf_of_isHigh high ascii)
  rw [isQuoteByte, other _ (by decide), other _ (by decide), other _ (by decide)]
  rfl

/-- A byte of code that opens nothing. -/
theorem scanBytes_plain (plain : isQuoteByte byte = false)
    (alone : byte = byteOf '/' →
      rest.head? ≠ some (byteOf '/') ∧ rest.head? ≠ some (byteOf '*')) :
    scanBytes .code start here (byte :: rest) =
      .code here :: scanBytes .code (here + 1) (here + 1) rest := by
  rw [scanBytes.eq_def]
  simp only [plain, Bool.false_eq_true, if_false]
  split
  · rename_i second more slash
    obtain ⟨noLine, noBlock⟩ := alone (eq_of_beq slash)
    rw [if_neg fun same => noLine (congrArg some same),
      if_neg fun same => noBlock (congrArg some same)]
  · rfl

theorem scanBytes_quote (quote : isQuoteByte byte = true) :
    scanBytes .code start here (byte :: rest) =
      scanBytes (.quoted byte) here (here + 1) rest := by
  rw [scanBytes.eq_def]
  simp only [quote, if_true]

theorem scanBytes_block_more (inside : byte = byteOf '*' → rest.head? ≠ some (byteOf '/')) :
    scanBytes .block start here (byte :: rest) = scanBytes .block start (here + 1) rest := by
  rw [scanBytes.eq_def]
  dsimp only
  split
  · rename_i second more star
    rw [if_neg fun same => inside (eq_of_beq star) (congrArg some same)]
  · rfl

/-- In code no piece is open. -/
theorem scanBytes_code_start (start other here : Nat) (rest : Bytes) :
    scanBytes .code start here rest = scanBytes .code other here rest := by
  cases rest with
  | nil => rfl
  | cons byte rest => rw [scanBytes.eq_def, scanBytes.eq_def .code other]

/-- High bytes are bytes of code. -/
theorem scanBytes_code_high (high : run.all isHigh = true) :
    scanBytes .code start here (run ++ rest) = (List.range' here run.length).map .code ++
      scanBytes .code (here + run.length) (here + run.length) rest := by
  induction run generalizing start here with
  | nil => exact scanBytes_code_start start here here rest
  | cons byte run ih =>
    rw [List.all_cons, Bool.and_eq_true] at high
    have other : byte ≠ byteOf '/' := ne_byteOf_of_isHigh high.1 (by decide)
    rw [List.cons_append, scanBytes_plain (isQuoteByte_of_isHigh high.1) (absurd · other),
      ih high.2, List.length_cons, List.range'_succ, Nat.add_right_comm]
    rfl

/-- A reader in a span or a comment goes over high bytes. -/
theorem scanBytes_span_high {state : ScanState} (high : run.all isHigh = true)
    (inside : state = .line ∨ state = .block ∨
      ∃ quote, quote.toNat < 128 ∧ state = .quoted (byteOf quote)) :
    scanBytes state start here (run ++ rest) = scanBytes state start (here + run.length) rest := by
  induction run generalizing here with
  | nil => rfl
  | cons byte run ih =>
    rw [List.all_cons, Bool.and_eq_true] at high
    have other (mark : Char) (ascii : mark.toNat < 128) : byte ≠ byteOf mark :=
      ne_byteOf_of_isHigh high.1 ascii
    have later := @ih (here + 1) high.2
    rw [List.cons_append, List.length_cons, Nat.add_comm run.length, ← Nat.add_assoc, ← later]
    rcases inside with rfl | rfl | ⟨quote, ascii, rfl⟩
    · rw [scanBytes.eq_def]
      exact if_neg (other '\n' (by decide))
    · exact scanBytes_block_more (absurd · (other '*' (by decide)))
    · rw [scanBytes.eq_def]
      dsimp only
      rw [if_neg (other '\\' (by decide)), if_neg (other quote ascii)]

end Bytes

section Texts

variable {c : Char} {rest : Text} {start here : Nat}

theorem encode_ascii (ascii : c.toNat < 128) (rest : Text) :
    encode (c :: rest) = byteOf c :: encode rest := by
  rcases encodeChar_cases c with ⟨_, byte⟩ | ⟨high, _⟩
  · rw [encode_cons, byte]
    rfl
  · omega

theorem exists_cons_encodeChar (c : Char) :
    ∃ first more, String.utf8EncodeChar c = first :: more := by
  apply List.exists_cons_of_length_pos
  rw [String.length_utf8EncodeChar]
  exact c.utf8Size_pos

theorem size_ascii (ascii : c.toNat < 128) (rest : Text) : size (c :: rest) = rest.size + 1 := by
  have length := congrArg List.length (encode_ascii ascii rest)
  rwa [length_encode, List.length_cons, length_encode] at length

/-- A text begins with an ASCII character exactly if its bytes begin with that of the character. -/
theorem head?_encode {mark : Char} (ascii : mark.toNat < 128) (text : Text) :
    (encode text).head? = some (byteOf mark) ↔ text.head? = some mark := by
  cases text with
  | nil => simp
  | cons c rest =>
    rcases encodeChar_cases c with ⟨low, _⟩ | ⟨above, high⟩
    · rw [encode_ascii low, List.head?_cons, List.head?_cons, Option.some.injEq, Option.some.injEq,
        byteOf_inj low ascii]
    · obtain ⟨first, more, bytes⟩ := exists_cons_encodeChar c
      rw [bytes, List.all_cons, Bool.and_eq_true] at high
      rw [encode_cons, bytes, List.cons_append, List.head?_cons, List.head?_cons,
        Option.some.injEq, Option.some.injEq]
      refine iff_of_false (ne_byteOf_of_isHigh high.1 ascii) ?_
      rintro rfl
      omega

section Quoted

variable {quote : Char} (mark : Piece.isQuote quote = true)
include mark

/-- A character in a span that neither ends it nor hides the next one. -/
theorem scanBytes_quoted_cons (other : c ≠ quote) (plain : c ≠ '\\') (rest : Text) :
    scanBytes (.quoted (byteOf quote)) start here (encode (c :: rest)) =
      scanBytes (.quoted (byteOf quote)) start (here + c.utf8Size) (encode rest) := by
  have ascii := ascii_of_isQuote mark
  rcases encodeChar_cases c with ⟨low, bytes⟩ | ⟨_, high⟩
  · have one := congrArg List.length bytes
    rw [String.length_utf8EncodeChar] at one
    rw [encode_ascii low, one, scanBytes.eq_def]
    dsimp only
    rw [if_neg (mt (byteOf_inj low (by decide)).mp plain),
      if_neg (mt (byteOf_inj low ascii).mp other)]
    rfl
  · rw [encode_cons, scanBytes_span_high high (.inr (.inr ⟨quote, ascii, rfl⟩)),
      String.length_utf8EncodeChar]

/-- The character behind a backslash, all of its bytes. -/
theorem scanBytes_escaped_cons (c : Char) (rest : Text) :
    scanBytes (.escaped (byteOf quote)) start here (encode (c :: rest)) =
      scanBytes (.quoted (byteOf quote)) start (here + c.utf8Size) (encode rest) := by
  have length := String.length_utf8EncodeChar c
  have step (byte : UInt8) (bytes : Bytes) :
      scanBytes (.escaped (byteOf quote)) start here (byte :: bytes) =
        scanBytes (.quoted (byteOf quote)) start (here + 1) bytes := rfl
  rcases encodeChar_cases c with ⟨low, bytes⟩ | ⟨_, high⟩
  · rw [bytes] at length
    rw [encode_cons, bytes, ← length]
    rfl
  · obtain ⟨first, more, bytes⟩ := exists_cons_encodeChar c
    rw [bytes, List.length_cons] at length
    rw [bytes, List.all_cons, Bool.and_eq_true] at high
    rw [encode_cons, bytes, List.cons_append, step, ← length,
      scanBytes_span_high high.2 (.inr (.inr ⟨quote, ascii_of_isQuote mark, rfl⟩)),
      Nat.add_comm more.length, Nat.add_assoc]

theorem scanBytes_quoted_end (start here : Nat) (rest : Text) :
    scanBytes (.quoted (byteOf quote)) start here (encode (quote :: rest)) =
      .quoted start (here + 1) :: scanBytes .code (here + 1) (here + 1) (encode rest) := by
  have ascii := ascii_of_isQuote mark
  rw [encode_ascii ascii, scanBytes.eq_def]
  dsimp only
  rw [if_neg (mt (byteOf_inj ascii (by decide)).mp (Piece.ne_backslash_of_isQuote mark)), if_pos rfl]

theorem scanBytes_quoted (start here : Nat) (text : Text) :
    scanBytes (.quoted (byteOf quote)) start here (encode text) =
      .quoted start (here + (Piece.quotedTail quote text).1.size) ::
        scanBytes .code 0 (here + (Piece.quotedTail quote text).1.size)
          (encode (Piece.quotedTail quote text).2) := by
  fun_induction Piece.quotedTail quote text generalizing here with
  | case1 => rfl
  | case2 c rest span after same ih =>
    rw [same] at ih
    have backslash : scanBytes (.quoted (byteOf quote)) start here (encode ('\\' :: c :: rest)) =
        scanBytes (.escaped (byteOf quote)) start (here + 1) (encode (c :: rest)) := rfl
    rw [backslash, scanBytes_escaped_cons mark, ih]
    have sum : here + 1 + c.utf8Size + span.size = here + size ('\\' :: c :: span) := by
      rw [size_ascii (by decide), size_cons]
      omega
    rw [sum]
  | case3 rest _ =>
    rw [scanBytes_quoted_end mark, size_ascii (ascii_of_isQuote mark), scanBytes_code_start _ 0]
    rfl
  | case4 c rest alone other span after same ih =>
    rw [same] at ih
    by_cases escape : c = '\\'
    · -- The text ends behind the backslash.
      subst escape
      cases rest with
      | cons d rest => exact absurd rfl (alone d rest rfl)
      | nil =>
        cases same
        rfl
    · rw [scanBytes_quoted_cons mark other escape, ih, size_cons, Nat.add_assoc]

end Quoted

theorem scanBytes_line (start here : Nat) (text : Text) :
    scanBytes .line start here (encode text) =
      .comment start (here + size (text.takeWhile Piece.inLine)) ::
        scanBytes .code 0 (here + size (text.takeWhile Piece.inLine))
          (encode (text.dropWhile Piece.inLine)) := by
  induction text generalizing here with
  | nil => rfl
  | cons c rest ih =>
    by_cases ends : c = '\n'
    · subst ends
      rfl
    · have inside : Piece.inLine c = true := bne_iff_ne.mpr ends
      have step : scanBytes .line start here (encode (c :: rest)) =
          scanBytes .line start (here + c.utf8Size) (encode rest) := by
        rcases encodeChar_cases c with ⟨low, bytes⟩ | ⟨_, high⟩
        · have one := congrArg List.length bytes
          rw [String.length_utf8EncodeChar] at one
          rw [encode_ascii low, one, scanBytes.eq_def]
          exact if_neg (mt (byteOf_inj low (by decide)).mp ends)
        · rw [encode_cons, scanBytes_span_high high (.inl rfl), String.length_utf8EncodeChar]
      rw [step, ih, List.takeWhile_cons_of_pos inside, List.dropWhile_cons_of_pos inside, size_cons,
        Nat.add_assoc]

theorem scanBytes_block_cons (inside : c = '*' → rest.head? ≠ some '/') :
    scanBytes .block start here (encode (c :: rest)) =
      scanBytes .block start (here + c.utf8Size) (encode rest) := by
  rcases encodeChar_cases c with ⟨low, bytes⟩ | ⟨_, high⟩
  · have one := congrArg List.length bytes
    rw [String.length_utf8EncodeChar] at one
    rw [encode_ascii low, one]
    refine scanBytes_block_more fun star => ?_
    rw [ne_eq, head?_encode (by decide)]
    exact inside ((byteOf_inj low (by decide)).mp star)
  · rw [encode_cons, scanBytes_span_high high (.inr (.inl rfl)), String.length_utf8EncodeChar]

theorem scanBytes_block (start here : Nat) (text : Text) :
    scanBytes .block start here (encode text) =
      .comment start (here + (Piece.blockTail text).1.size) ::
        scanBytes .code 0 (here + (Piece.blockTail text).1.size)
          (encode (Piece.blockTail text).2) := by
  fun_induction Piece.blockTail text generalizing here with
  | case1 => rfl
  | case2 rest =>
    have ends : scanBytes .block start here (encode ('*' :: '/' :: rest)) =
      .comment start (here + 2) :: scanBytes .code (here + 2) (here + 2) (encode rest) := rfl
    rw [ends, scanBytes_code_start _ 0]
    rfl
  | case3 c rest inside span after same ih =>
    rw [same] at ih
    have still : c = '*' → rest.head? ≠ some '/' := by
      rintro rfl slash
      obtain ⟨more, rfl⟩ := List.head?_eq_some_iff.mp slash
      exact inside more rfl rfl
    rw [scanBytes_block_cons still, ih, size_cons, Nat.add_assoc]

/-- The bytes of a piece: those of code one by one, spans and comments as a whole. -/
def Placed.inBytes (placed : Placed) : List BytePiece :=
  match placed.piece with
  | .code c => (List.range' placed.start c.utf8Size).map .code
  | .quoted _ => [.quoted placed.start placed.stop]
  | .comment _ => [.comment placed.start placed.stop]

theorem scanBytes_code (start here : Nat) (text : Text) :
    scanBytes .code start here (encode text) =
      (placeFrom here (pieces text)).flatMap Placed.inBytes := by
  fun_induction pieces text generalizing start here with
  | case1 => rfl
  | case2 c rest ih =>
    rw [placeFrom, List.flatMap_cons, ← ih 0]
    rcases Piece.first_cases c rest with ⟨line, rfl, rfl⟩ | ⟨block, rfl, rfl⟩ | mark |
      ⟨plain, alone⟩
    · have opens : scanBytes .code start here (encode ('/' :: '/' :: line)) =
        scanBytes .line here (here + 2) (encode line) := rfl
      have sum : here + size ('/' :: '/' :: line.takeWhile Piece.inLine) =
          here + 2 + size (line.takeWhile Piece.inLine) := by
        rw [size_ascii (by decide), size_ascii (by decide)]
        omega
      rw [opens, scanBytes_line, ← sum]
      rfl
    · have opens : scanBytes .code start here (encode ('/' :: '*' :: block)) =
        scanBytes .block here (here + 2) (encode block) := rfl
      have sum : here + size ('/' :: '*' :: (Piece.blockTail block).1) =
          here + 2 + (Piece.blockTail block).1.size := by
        rw [size_ascii (by decide), size_ascii (by decide)]
        omega
      rw [opens, scanBytes_block, ← sum]
      rfl
    · have ascii := ascii_of_isQuote mark
      have sum : here + size (c :: (Piece.quotedTail c rest).1) =
          here + 1 + (Piece.quotedTail c rest).1.size := by
        rw [size_ascii ascii]
        omega
      rw [Piece.first_of_quote mark, encode_ascii ascii,
        scanBytes_quote (isQuoteByte_byteOf ascii ▸ mark), scanBytes_quoted mark, ← sum]
      rfl
    · rw [Piece.first_of_code plain alone]
      rcases encodeChar_cases c with ⟨low, bytes⟩ | ⟨_, high⟩
      · have one := congrArg List.length bytes
        rw [String.length_utf8EncodeChar] at one
        have slash : byteOf c = byteOf '/' → (encode rest).head? ≠ some (byteOf '/') ∧
            (encode rest).head? ≠ some (byteOf '*') := by
          rw [byteOf_inj low (by decide), ne_eq, ne_eq, head?_encode (by decide),
            head?_encode (by decide)]
          exact alone
        rw [encode_ascii low, scanBytes_plain (isQuoteByte_byteOf low ▸ plain) slash,
          scanBytes_code_start _ 0]
        simp [Placed.inBytes, Piece.text, one]
      · rw [encode_cons, scanBytes_code_high high, scanBytes_code_start _ 0,
          String.length_utf8EncodeChar]
        simp [Placed.inBytes, Piece.text]

/-- Behind an offset stand the bytes left over from a character that it cuts, all of them high, and
then whole characters. -/
theorem drop_encode (start : Nat) (text : Text) :
    ∃ run, (encode text).drop start = run ++ encode (dropBytes start text).2 ∧
      run.all isHigh = true ∧ run.length = (dropBytes start text).1 := by
  fun_induction dropBytes start text with
  | case1 text => exact ⟨[], rfl, rfl, rfl⟩
  | case2 => exact ⟨[], List.drop_nil, rfl, rfl⟩
  | case3 n c rest fits ih =>
    rw [encode_cons, List.drop_append, String.length_utf8EncodeChar,
      List.drop_eq_nil_of_le (by rwa [String.length_utf8EncodeChar]), List.nil_append]
    exact ih
  | case4 n c rest cut =>
    refine ⟨(String.utf8EncodeChar c).drop (n + 1), ?_, ?_, ?_⟩
    · rw [encode_cons, List.drop_append_of_le_length]
      rw [String.length_utf8EncodeChar]
      omega
    · rcases encodeChar_cases c with ⟨_, bytes⟩ | ⟨_, high⟩
      · have one := congrArg List.length bytes
        rw [String.length_utf8EncodeChar, List.length_singleton] at one
        omega
      · exact List.all_eq_true.mpr fun byte inside =>
          List.all_eq_true.mp high byte (List.mem_of_mem_drop inside)
    · rw [List.length_drop, String.length_utf8EncodeChar]

/-- The pieces of a text in bytes, from a byte offset on. -/
def bytePieces (text : Text) (start : Nat) : List BytePiece :=
  scanBytes .code start start ((encode text).drop start)

/-- From every offset on, the pieces found byte by byte are those of the text. -/
theorem bytePieces_eq (text : Text) (start : Nat) :
    bytePieces text start = (List.range' start (piecesFrom text start).1).map .code ++
      (piecesFrom text start).2.flatMap Placed.inBytes := by
  obtain ⟨run, bytes, high, length⟩ := drop_encode start text
  rw [bytePieces, bytes, scanBytes_code_high high, length, scanBytes_code]
  rfl

theorem bytePieces_zero (text : Text) :
    bytePieces text 0 = (placeFrom 0 (pieces text)).flatMap Placed.inBytes :=
  scanBytes_code 0 0 text

end Texts

end TypedClient
