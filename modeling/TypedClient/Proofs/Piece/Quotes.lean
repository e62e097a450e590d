import TypedClient.Piece.Bracket
import TypedClient.Proofs.Piece.Alignment

/-!
Texts all of whose quoted spans have their closing quote. Main statements: the inside of a bracket
pair is such a text whatever stands around the pair, and a text stays one when its comments are
removed and when it is trimmed.
-/

namespace TypedClient

open Text

namespace Piece

/-- Whether a quoted span ends with its own quote, rather than with the text. -/
def isClosedSpan : Text → Bool
  | quote :: tail => isQuote quote && endsQuoted quote tail
  | [] => false

theorem getLast?_of_endsQuoted {quote : Char} {tail : Text}
    (closed : endsQuoted quote tail = true) : tail.getLast? = some quote := by
  fun_induction endsQuoted quote tail with
  | case1 => contradiction
  | case2 c tail ih =>
    rw [List.getLast?_cons, List.getLast?_cons, ih closed]
    rfl
  | case3 tail _ =>
    rw [List.isEmpty_iff.mp closed]
    rfl
  | case4 c tail _ _ ih =>
    rw [List.getLast?_cons, ih closed]
    rfl

theorem getLast?_of_endsBlock {tail : Text} (closed : endsBlock tail = true) :
    tail.getLast? = some '/' := by
  fun_induction endsBlock tail with
  | case1 => contradiction
  | case2 rest =>
    rw [List.isEmpty_iff.mp closed]
    rfl
  | case3 c rest _ ih =>
    rw [List.getLast?_cons, ih closed]
    rfl

theorem utf8Size_of_isQuote {quote : Char} (mark : isQuote quote = true) : quote.utf8Size = 1 := by
  simp only [isQuote, Bool.or_eq_true, beq_iff_eq] at mark
  rcases mark with (rfl | rfl) | rfl <;> rfl

/-- A closed span is a text between two quotes, and that text can be cut out. -/
theorem literal_of_isClosedSpan {span : Text} (closed : isClosedSpan span = true) :
    ∃ quote literal, span = quote :: literal ++ [quote] ∧ insideQuotes? span = some literal := by
  cases span with
  | nil => contradiction
  | cons quote tail =>
    rw [isClosedSpan, Bool.and_eq_true] at closed
    obtain ⟨literal, whole⟩ := List.getLast?_eq_some_iff.mp (getLast?_of_endsQuoted closed.2)
    refine ⟨quote, literal, by rw [whole, List.cons_append], ?_⟩
    rw [insideQuotes?, List.tail_cons, whole, List.reverse_append, List.reverse_singleton,
      List.singleton_append]
    simp [utf8Size_of_isQuote closed.1]

theorem EndsBefore.code {c : Char} {next : Option Char} (ends : (code c).EndsBefore next) :
    isQuote c = false ∧ (c = '/' → next ≠ some '/' ∧ next ≠ some '*') := by
  obtain ⟨d, tail, starts, scans⟩ := ends
  cases starts
  have scanned := scans next.toList (.inr (by cases next <;> rfl))
  rcases first_cases c ([] ++ next.toList) with ⟨line, rfl, same⟩ | ⟨block, rfl, same⟩ | mark |
    other
  · simp [same, first] at scanned
  · simp [same, first] at scanned
  · simp [first_of_quote mark] at scanned
  · cases next <;> simpa using other

theorem EndsBefore.comment {span : Text} {next : Option Char}
    (ends : (comment span).EndsBefore next) : span.head? = some '/' := by
  obtain ⟨c, tail, starts, scans⟩ := ends
  cases starts
  have scanned := scans [] (.inl rfl)
  rcases first_cases c (tail ++ []) with ⟨line, rfl, _⟩ | ⟨block, rfl, _⟩ | mark | ⟨plain, alone⟩
  · rfl
  · rfl
  · simp [first_of_quote mark] at scanned
  · rw [first_of_code plain alone] at scanned
    simp at scanned

/-- A comment is a line without a line feed, and behind it the line ends; or it is a block, and
where something follows it has its end mark. -/
theorem EndsBefore.comment_cases {span : Text} {next : Option Char}
    (ends : (Piece.comment span).EndsBefore next) :
    (∃ line, span = '/' :: '/' :: line ∧ line.all inLine = true ∧
        next.all (fun c => !inLine c) = true) ∨
      ∃ block, span = '/' :: '*' :: block ∧ (next ≠ none → endsBlock block = true) := by
  obtain ⟨c, tail, starts, scans⟩ := ends
  cases starts
  have scanned := scans next.toList (.inr (by cases next <;> rfl))
  rcases first_cases c (tail ++ next.toList) with ⟨line, rfl, same⟩ | ⟨block, rfl, same⟩ | mark |
    ⟨plain, alone⟩
  · left
    rw [same, first, Prod.mk.injEq, Piece.comment.injEq, List.cons.injEq] at scanned
    refine ⟨line.takeWhile inLine, by rw [scanned.1.2], List.all_takeWhile, ?_⟩
    have stops := head?_dropWhile_stops inLine line
    rw [scanned.2] at stops
    cases next with
    | none => rfl
    | some c => exact stops
  · right
    rw [same, first, Prod.mk.injEq, Piece.comment.injEq, List.cons.injEq] at scanned
    refine ⟨(blockTail block).1, by rw [scanned.1.2], fun follows => endsBlock_of_rest ?_⟩
    rw [scanned.2]
    simpa using follows
  · simp [first_of_quote mark] at scanned
  · simp [first_of_code plain alone] at scanned

/-- A span begins with a quote. -/
theorem EndsBefore.starts_quoted {span : Text} {next : Option Char}
    (ends : (Piece.quoted span).EndsBefore next) :
    ∃ quote tail, span = quote :: tail ∧ isQuote quote = true := by
  obtain ⟨c, tail, starts, scans⟩ := ends
  cases starts
  have scanned := scans [] (.inl rfl)
  rcases first_cases c (tail ++ []) with ⟨line, rfl, same⟩ | ⟨block, rfl, same⟩ | mark |
    ⟨plain, alone⟩
  · simp [same, first] at scanned
  · simp [same, first] at scanned
  · exact ⟨c, tail, rfl, mark⟩
  · rw [first_of_code plain alone] at scanned
    simp at scanned

/-- A span that something follows is closed. -/
theorem EndsBefore.quoted {span : Text} {next : Char}
    (ends : (quoted span).EndsBefore (some next)) : isClosedSpan span = true := by
  obtain ⟨c, tail, starts, scans⟩ := ends
  cases starts
  have scanned := scans [next] (.inr rfl)
  rcases first_cases c (tail ++ [next]) with ⟨line, rfl, same⟩ | ⟨block, rfl, same⟩ | mark |
    ⟨plain, alone⟩
  · simp [same, first] at scanned
  · simp [same, first] at scanned
  · rw [first_of_quote mark, Prod.mk.injEq, quoted.injEq, List.cons.injEq] at scanned
    have left : (quotedTail c (tail ++ [next])).2 ≠ [] := by simp [scanned.2]
    have closed := endsQuoted_of_rest left
    rw [scanned.1.2] at closed
    rw [isClosedSpan, mark, closed]
    rfl
  · simp [first_of_code plain alone] at scanned

theorem endsBefore_of_isClosedSpan {span : Text} (closed : isClosedSpan span = true)
    (next : Option Char) : (quoted span).EndsBefore next := by
  cases span with
  | nil => contradiction
  | cons quote tail =>
    rw [isClosedSpan, Bool.and_eq_true] at closed
    exact endsBefore_quoted closed.1 closed.2 next

end Piece

theorem Aligned.isClosedSpan_of_follows {before after : List Piece} {span : Text}
    (aligned : Aligned (before ++ .quoted span :: after)) (follows : textOf after ≠ []) :
    Piece.isClosedSpan span = true := by
  have ends := aligned.of_append_right.1
  cases next : (textOf after).head? with
  | none => exact absurd (List.head?_eq_none_iff.mp next) follows
  | some c =>
    rw [next] at ends
    exact ends.quoted

/-- Every quoted span of the text has its closing quote. -/
def QuotesClosed (text : Text) : Prop :=
  ∀ span, .quoted span ∈ pieces text → Piece.isClosedSpan span = true

theorem QuotesClosed.of_stretch {text : Text} {found : List Piece} (closed : QuotesClosed text)
    (inside : found <:+: pieces text) : QuotesClosed (textOf found) := by
  intro span member
  rw [pieces_textOf ((aligned_pieces text).of_stretch inside)] at member
  exact closed span (inside.subset member)

section Bracket

variable {text : Text} {inner after : List Piece} {opening closing : Char}

/-- The inside of a bracket pair. -/
theorem quotesClosed_of_splitClose
    (split : splitClose opening closing 0 (pieces text) = some (inner, after)) :
    QuotesClosed (textOf inner) := by
  have whole := splitClose_append split
  have aligned : Aligned (inner ++ .code closing :: after) := whole ▸ aligned_pieces text
  intro span member
  rw [pieces_textOf aligned.of_append_left] at member
  obtain ⟨front, back, rfl⟩ := List.append_of_mem member
  rw [List.append_assoc, List.cons_append] at aligned
  exact aligned.isClosedSpan_of_follows (by simp [Piece.text])

theorem quotesClosed_of_braced? {value body : Text} (literal : braced? value = some body) :
    QuotesClosed body := by
  unfold braced? at literal
  split at literal
  · split at literal
    · rename_i closes
      split at literal
      · cases literal
        exact quotesClosed_of_splitClose closes
      · contradiction
    · contradiction
  · contradiction

end Bracket

section Comments

/-- A piece once comments are removed. -/
def Piece.uncommented : Piece → List Piece
  | comment ('/' :: '*' :: _) => [code ' ']
  | comment _ => []
  | piece => [piece]

theorem textOf_flatMap_uncommented (found : List Piece) :
    textOf (found.flatMap Piece.uncommented) = found.flatMap Piece.withoutComment := by
  have each : ∀ piece : Piece, textOf piece.uncommented = piece.withoutComment := by
    intro piece
    unfold Piece.uncommented Piece.withoutComment
    split <;> simp_all [Piece.text]
  induction found with
  | nil => rfl
  | cons piece rest ih => rw [List.flatMap_cons, List.flatMap_cons, textOf_append, each, ih]

theorem Aligned.filled {piece : Piece} {rest : List Piece} (aligned : Aligned (piece :: rest)) :
    ∃ c, (textOf (piece :: rest)).head? = some c := by
  obtain ⟨c, tail, starts, _⟩ := aligned.1
  exact ⟨c, by rw [textOf_cons, starts]; rfl⟩

/-- Where no comment can begin, the next character stays when comments are removed. -/
theorem head?_uncommented {found : List Piece} (aligned : Aligned found)
    (other : (textOf found).head? ≠ some '/') :
    (textOf (found.flatMap Piece.uncommented)).head? = (textOf found).head? := by
  cases found with
  | nil => rfl
  | cons piece rest =>
    cases piece with
    | code c => rfl
    | quoted span =>
      obtain ⟨c, tail, starts, _⟩ := aligned.1
      rw [List.flatMap_cons]
      simp [Piece.uncommented, starts]
    | comment span =>
      have slash := aligned.1.comment
      cases span with
      | nil => contradiction
      | cons c span => exact absurd slash other

theorem Aligned.uncommented {found : List Piece} (aligned : Aligned found) :
    Aligned (found.flatMap Piece.uncommented) := by
  induction found with
  | nil => trivial
  | cons piece rest ih =>
    obtain ⟨ends, later⟩ : piece.EndsBefore (textOf rest).head? ∧ Aligned rest := aligned
    cases piece with
    | code c =>
      obtain ⟨plain, alone⟩ := ends.code
      refine ⟨Piece.endsBefore_code plain fun slash => ?_, ih later⟩
      rw [← head?_uncommented later (alone slash).1] at alone
      exact alone slash
    | quoted span =>
      refine ⟨?_, ih later⟩
      cases rest with
      | nil => exact ends.at_end
      | cons next rest =>
        obtain ⟨c, starts⟩ := later.filled
        rw [starts] at ends
        exact Piece.endsBefore_of_isClosedSpan ends.quoted _
    | comment span =>
      rw [List.flatMap_cons]
      unfold Piece.uncommented
      split
      · exact ⟨Piece.endsBefore_code rfl nofun, ih later⟩
      · exact ih later
      · rename_i other
        exact absurd rfl (other span)

/-- Scanning a text without its comments gives its pieces without the comments. -/
theorem pieces_stripComments (text : Text) :
    pieces (stripComments text) = (pieces text).flatMap Piece.uncommented := by
  rw [stripComments, ← textOf_flatMap_uncommented]
  exact pieces_textOf (aligned_pieces text).uncommented

theorem QuotesClosed.stripComments {text : Text} (closed : QuotesClosed text) :
    QuotesClosed (stripComments text) := by
  intro span member
  rw [pieces_stripComments] at member
  obtain ⟨piece, listed, inside⟩ := List.mem_flatMap.mp member
  unfold Piece.uncommented at inside
  split at inside
  · simp at inside
  · contradiction
  · rw [← List.mem_singleton.mp inside] at listed
    exact closed span listed

end Comments

section Trimming

/-- A span that is still open at the end of a text is not closed by characters that are no
quotes. -/
theorem Piece.endsQuoted_of_append {quote : Char} {tail rest : Text} (mark : isQuote quote = true)
    (whole : quotedTail quote tail = (tail, []))
    (free : rest.all (fun c => !isQuote c) = true)
    (closed : endsQuoted quote (quotedTail quote (tail ++ rest)).1 = true) :
    endsQuoted quote tail = true := by
  have parts := quotedTail_append quote (tail ++ rest)
  generalize (quotedTail quote (tail ++ rest)).1 = span at closed parts
  generalize (quotedTail quote (tail ++ rest)).2 = after at parts
  rcases List.append_eq_append_iff.mp parts with ⟨left, inside, _⟩ | ⟨more, same, inside⟩
  · have read := quotedTail_of_endsQuoted (ne_backslash_of_isQuote mark) closed left
    rw [← inside, whole, Prod.mk.injEq] at read
    rw [read.1, closed]
  · cases last : more.getLast? with
    | none => rwa [same, List.getLast?_eq_none_iff.mp last, List.append_nil] at closed
    | some c =>
      have ending := getLast?_of_endsQuoted closed
      rw [same, List.getLast?_append, last] at ending
      cases ending
      have listed : quote ∈ rest := inside ▸ List.mem_append_left _ (List.mem_of_getLast? last)
      simpa [mark] using List.all_eq_true.mp free quote listed

/-- What stands before a stretch without quotes is closed if the whole text is. -/
theorem QuotesClosed.of_append {text rest : Text} (closed : QuotesClosed (text ++ rest))
    (free : rest.all (fun c => !Piece.isQuote c) = true) : QuotesClosed text := by
  intro span member
  fun_induction pieces text with
  | case1 => contradiction
  | case2 c tail ih =>
    by_cases last : (Piece.first c tail).2 = []
    · rw [last, pieces, List.mem_singleton] at member
      have scanned : Piece.first c tail = (.quoted span, []) := Prod.ext member.symm last
      rcases Piece.first_cases c tail with ⟨line, rfl, rfl⟩ | ⟨block, rfl, rfl⟩ | mark |
        ⟨plain, alone⟩
      · simp [Piece.first] at scanned
      · simp [Piece.first] at scanned
      · have first := closed _ (by
          rw [List.cons_append, pieces_cons, Piece.first_of_quote mark]
          exact List.mem_cons_self)
        rw [Piece.isClosedSpan, mark, Bool.true_and] at first
        have parts := Piece.quotedTail_append c tail
        rw [Piece.first_of_quote mark, Prod.mk.injEq, Piece.quoted.injEq] at scanned
        rw [scanned.2, List.append_nil] at parts
        rw [← scanned.1, parts, Piece.isClosedSpan, mark,
          Piece.endsQuoted_of_append mark (Prod.ext parts scanned.2) free first]
        rfl
      · simp [Piece.first_of_code plain alone] at scanned
    · have scans := Piece.first_append_right last rest
      have more : pieces (c :: (tail ++ rest)) =
          (Piece.first c tail).1 :: pieces ((Piece.first c tail).2 ++ rest) := by
        rw [pieces_cons, scans]
      rcases List.mem_cons.mp member with here | later
      · exact closed span (by rw [List.cons_append, more, here]; exact List.mem_cons_self)
      · refine ih (fun other listed => closed other ?_) later
        rw [List.cons_append, more]
        exact List.mem_cons_of_mem _ listed

theorem plain_of_isBlank {c : Char} (blank : isBlank c = true) :
    Piece.isQuote c = false ∧ c ≠ '/' := by
  constructor
  · cases mark : Piece.isQuote c with
    | false => rfl
    | true =>
      simp only [Piece.isQuote, Bool.or_eq_true, beq_iff_eq] at mark
      rcases mark with (rfl | rfl) | rfl <;> contradiction
  · rintro rfl
    contradiction

theorem QuotesClosed.of_blanks {blanks text : Text} (closed : QuotesClosed (blanks ++ text))
    (blank : blanks.all isBlank = true) : QuotesClosed text := by
  induction blanks with
  | nil => exact closed
  | cons c rest ih =>
    rw [List.all_cons, Bool.and_eq_true] at blank
    have plain : Piece.isQuote c = false ∧ c ≠ '/' := plain_of_isBlank blank.1
    refine ih (fun span member => closed span ?_) blank.2
    rw [List.cons_append, pieces_cons,
      Piece.first_of_code plain.1 fun slash => absurd slash plain.2]
    exact List.mem_cons_of_mem _ member

theorem QuotesClosed.trim {text : Text} (closed : QuotesClosed text) :
    QuotesClosed (trim text) := by
  obtain ⟨before, opening, start⟩ := exists_blanks_trimStart text
  obtain ⟨after, closing, ending⟩ := exists_trimEnd_blanks (trimStart text)
  have free : after.all (fun c => !Piece.isQuote c) = true :=
    all_imp (fun c blank => by simp [(plain_of_isBlank blank).1]) closing
  rw [start] at closed
  have inside := closed.of_blanks opening
  rw [ending] at inside
  exact inside.of_append free

end Trimming

end TypedClient
