import TypedClient.Piece.Basic
import TypedClient.Proofs.Text.Trim

/-!
Pieces scanned again. A list of pieces is aligned if each of them ends where the next one begins.
Main statement: scanning the text of a list of pieces gives the list if and only if it is aligned,
so that a stretch of the pieces of a text is what scanning that stretch gives.
-/

namespace TypedClient

open Text

namespace Piece

/-- Whether the rest of a quoted span ends with its quote. -/
def endsQuoted (quote : Char) : Text → Bool
  | [] => false
  | '\\' :: _ :: rest => endsQuoted quote rest
  | c :: rest => if c = quote then rest.isEmpty else endsQuoted quote rest

/-- Whether the rest of a block comment ends with the first end mark in it. -/
def endsBlock : Text → Bool
  | [] => false
  | '*' :: '/' :: rest => rest.isEmpty
  | _ :: rest => endsBlock rest

section Tails

variable {quote : Char} {tail : Text}

theorem quotedTail_cons {c : Char} (plain : c ≠ '\\') (rest : Text) :
    quotedTail quote (c :: rest) =
      if c = quote then ([c], rest)
      else (c :: (quotedTail quote rest).1, (quotedTail quote rest).2) := by
  rw [quotedTail]
  intro _ _ same
  exact absurd same plain

theorem endsQuoted_cons {c : Char} (plain : c ≠ '\\') (rest : Text) :
    endsQuoted quote (c :: rest) = if c = quote then rest.isEmpty else endsQuoted quote rest := by
  rw [endsQuoted]
  intro _ _ same
  exact absurd same plain

/-- A span that ends with its quote is read up to there, whatever follows. -/
theorem quotedTail_of_endsQuoted (mark : quote ≠ '\\') (closed : endsQuoted quote tail = true)
    (rest : Text) : quotedTail quote (tail ++ rest) = (tail, rest) := by
  fun_induction endsQuoted quote tail with
  | case1 => contradiction
  | case2 c tail ih => simp [quotedTail, ih closed]
  | case3 tail _ =>
    rw [List.isEmpty_iff.mp closed, List.singleton_append, quotedTail_cons mark, if_pos rfl]
  | case4 c tail alone other ih =>
    have plain : c ≠ '\\' := by
      rintro rfl
      cases tail with
      | nil => contradiction
      | cons d tail => exact alone d tail rfl rfl
    rw [List.cons_append, quotedTail_cons plain, if_neg other, ih closed]

theorem endsQuoted_of_rest {text : Text} (left : (quotedTail quote text).2 ≠ []) :
    endsQuoted quote (quotedTail quote text).1 = true := by
  fun_induction quotedTail quote text with
  | case1 => contradiction
  | case2 c rest span after same ih =>
    rw [same] at ih
    exact ih left
  | case3 rest _ => simp [endsQuoted]
  | case4 c rest alone other span after same ih =>
    rw [same] at ih
    have plain : c ≠ '\\' := by
      rintro rfl
      cases rest with
      | nil =>
        rw [quotedTail, Prod.mk.injEq] at same
        exact left same.2.symm
      | cons d rest => exact alone d rest rfl rfl
    rw [endsQuoted_cons plain, if_neg other]
    exact ih left

theorem blockTail_cons {c : Char} {rest : Text} (inside : c = '*' → rest.head? ≠ some '/') :
    blockTail (c :: rest) = (c :: (blockTail rest).1, (blockTail rest).2) := by
  rw [blockTail]
  rintro tail rfl rfl
  exact inside rfl rfl

theorem blockTail_of_endsBlock (closed : endsBlock tail = true) (rest : Text) :
    blockTail (tail ++ rest) = (tail, rest) := by
  fun_induction endsBlock tail with
  | case1 => contradiction
  | case2 tail =>
    rw [List.isEmpty_iff.mp closed]
    rfl
  | case3 c tail inside ih =>
    have still : c = '*' → (tail ++ rest).head? ≠ some '/' := by
      rintro rfl slash
      cases tail with
      | nil => contradiction
      | cons d tail =>
        cases slash
        exact inside tail rfl rfl
    rw [List.cons_append, blockTail_cons still, ih closed]

theorem endsBlock_of_rest {text : Text} (left : (blockTail text).2 ≠ []) :
    endsBlock (blockTail text).1 = true := by
  fun_induction blockTail text with
  | case1 => contradiction
  | case2 rest => rfl
  | case3 c rest inside span after same ih =>
    rw [same] at ih
    rw [endsBlock]
    · exact ih left
    · rintro tail rfl rfl
      cases rest with
      | nil =>
        rw [blockTail, Prod.mk.injEq] at same
        exact left same.2.symm
      | cons d rest =>
        have whole := congrArg List.head? (blockTail_append (d :: rest))
        rw [same] at whole
        cases whole
        exact inside rest rfl rfl

end Tails

/-- Scanning gives the piece wherever its text ends or goes on with the character `next`. -/
def EndsBefore (next : Option Char) (piece : Piece) : Prop :=
  ∃ c tail, piece.text = c :: tail ∧
    ∀ rest, rest = [] ∨ rest.head? = next → first c (tail ++ rest) = (piece, rest)

theorem EndsBefore.at_end {next : Option Char} {piece : Piece} (ends : piece.EndsBefore next) :
    piece.EndsBefore none := by
  obtain ⟨c, tail, starts, scans⟩ := ends
  exact ⟨c, tail, starts, fun rest follows => scans rest (.inl (by simpa using follows))⟩

theorem first_of_code {c : Char} {rest : Text} (plain : isQuote c = false)
    (alone : c = '/' → rest.head? ≠ some '/' ∧ rest.head? ≠ some '*') :
    first c rest = (code c, rest) := by
  unfold first
  split
  · exact absurd rfl (alone rfl).1
  · exact absurd rfl (alone rfl).2
  · rw [if_neg (by simp [plain])]

theorem first_of_quote {c : Char} (mark : isQuote c = true) (rest : Text) :
    first c rest = (quoted (c :: (quotedTail c rest).1), (quotedTail c rest).2) := by
  unfold first
  split
  · contradiction
  · contradiction
  · rw [if_pos mark]

/-- A text begins with a line comment, a block comment, a quoted span or a character of code. -/
theorem first_cases (c : Char) (rest : Text) :
    (∃ line, c = '/' ∧ rest = '/' :: line) ∨ (∃ block, c = '/' ∧ rest = '*' :: block) ∨
      isQuote c = true ∨ (isQuote c = false ∧
        (c = '/' → rest.head? ≠ some '/' ∧ rest.head? ≠ some '*')) := by
  by_cases mark : isQuote c = true
  · exact .inr (.inr (.inl mark))
  · cases rest with
    | nil => exact .inr (.inr (.inr ⟨by simpa using mark, fun _ => ⟨nofun, nofun⟩⟩))
    | cons d rest =>
      by_cases line : c = '/' ∧ d = '/'
      · exact .inl ⟨rest, line.1, by rw [line.2]⟩
      · by_cases block : c = '/' ∧ d = '*'
        · exact .inr (.inl ⟨rest, block.1, by rw [block.2]⟩)
        · refine .inr (.inr (.inr ⟨by simpa using mark, fun slash => ⟨?_, ?_⟩⟩))
          · simpa using fun same => line ⟨slash, same⟩
          · simpa using fun same => block ⟨slash, same⟩

theorem ne_backslash_of_isQuote {c : Char} (mark : isQuote c = true) : c ≠ '\\' := by
  rintro rfl
  contradiction

theorem endsBefore_code {c : Char} {next : Option Char} (plain : isQuote c = false)
    (alone : c = '/' → next ≠ some '/' ∧ next ≠ some '*') : (code c).EndsBefore next := by
  refine ⟨c, [], rfl, fun rest follows => first_of_code plain fun slash => ?_⟩
  rcases follows with rfl | same
  · exact ⟨nofun, nofun⟩
  · exact same ▸ alone slash

theorem endsBefore_quoted {c : Char} {tail : Text} (mark : isQuote c = true)
    (closed : endsQuoted c tail = true) (next : Option Char) :
    (quoted (c :: tail)).EndsBefore next := by
  refine ⟨c, tail, rfl, fun rest _ => ?_⟩
  rw [first_of_quote mark, quotedTail_of_endsQuoted (ne_backslash_of_isQuote mark) closed]

theorem endsBefore_block {block : Text} (closed : endsBlock block = true) (next : Option Char) :
    (comment ('/' :: '*' :: block)).EndsBefore next := by
  refine ⟨'/', '*' :: block, rfl, fun rest _ => ?_⟩
  rw [List.cons_append, first, blockTail_of_endsBlock closed]

theorem endsBefore_line {line : Text} {next : Option Char} (inside : line.all inLine = true)
    (stops : next.all (fun c => !inLine c) = true) :
    (comment ('/' :: '/' :: line)).EndsBefore next := by
  refine ⟨'/', '/' :: line, rfl, fun rest follows => ?_⟩
  have ends : rest.head?.all (fun c => !inLine c) = true := by
    rcases follows with rfl | same
    · rfl
    · rwa [same]
  rw [List.cons_append, first, takeWhile_append_of_stop line inside ends,
    dropWhile_append_of_stop line inside ends]

/-- What begins a text ends where the rest of the text begins. -/
theorem endsBefore_first (c : Char) (rest : Text) :
    (first c rest).1.EndsBefore (first c rest).2.head? := by
  by_cases last : (first c rest).2 = []
  · have whole := first_append c rest
    rw [last, List.append_nil] at whole
    refine ⟨c, rest, whole, fun other follows => ?_⟩
    have none : other = [] := by simpa [last] using follows
    rw [none, List.append_nil, ← last]
  · rcases first_cases c rest with ⟨line, rfl, rfl⟩ | ⟨block, rfl, rfl⟩ | mark | ⟨plain, alone⟩
    · exact endsBefore_line List.all_takeWhile (head?_dropWhile_stops inLine line)
    · exact endsBefore_block (endsBlock_of_rest last) _
    · rw [first_of_quote mark] at last ⊢
      exact endsBefore_quoted mark (endsQuoted_of_rest last) _
    · rw [first_of_code plain alone]
      exact endsBefore_code plain alone

/-- What begins a text and does not take all of it begins any longer text. -/
theorem first_append_right {c : Char} {text : Text} (left : (first c text).2 ≠ []) (more : Text) :
    first c (text ++ more) = ((first c text).1, (first c text).2 ++ more) := by
  obtain ⟨d, tail, starts, scans⟩ := endsBefore_first c text
  have whole := first_append c text
  rw [starts, List.cons_append] at whole
  have parts : tail ++ (first c text).2 = text := (List.cons.inj whole).2
  have same : ((first c text).2 ++ more).head? = (first c text).2.head? := by
    cases after : (first c text).2 with
    | nil => exact absurd after left
    | cons => rfl
  have scanned := scans ((first c text).2 ++ more) (.inr same)
  rwa [(List.cons.inj whole).1, ← List.append_assoc, parts] at scanned

end Piece

/-- Every piece ends where the next one begins. -/
def Aligned : List Piece → Prop
  | [] => True
  | piece :: rest => piece.EndsBefore (textOf rest).head? ∧ Aligned rest

theorem aligned_pieces (text : Text) : Aligned (pieces text) := by
  fun_induction pieces text with
  | case1 => trivial
  | case2 c rest ih =>
    refine ⟨?_, ih⟩
    rw [textOf_pieces]
    exact Piece.endsBefore_first c rest

theorem pieces_cons {c : Char} {rest : Text} :
    pieces (c :: rest) = (Piece.first c rest).1 :: pieces (Piece.first c rest).2 := by
  rw [pieces]

/-- Aligned pieces are what scanning their text gives. -/
theorem pieces_textOf {found : List Piece} (aligned : Aligned found) :
    pieces (textOf found) = found := by
  induction found with
  | nil => rw [textOf_nil, pieces]
  | cons piece rest ih =>
    obtain ⟨⟨c, tail, starts, scans⟩, later⟩ := aligned
    rw [textOf_cons, starts, List.cons_append, pieces_cons, scans (textOf rest) (.inr rfl),
      ih later]

theorem pieces_textOf_iff {found : List Piece} : pieces (textOf found) = found ↔ Aligned found :=
  ⟨fun same => same ▸ aligned_pieces (textOf found), pieces_textOf⟩

namespace Aligned

variable {before after found : List Piece}

theorem of_append_right (aligned : Aligned (before ++ after)) : Aligned after := by
  induction before with
  | nil => exact aligned
  | cons piece rest ih => exact ih aligned.2

theorem of_append_left (aligned : Aligned (before ++ after)) : Aligned before := by
  induction before with
  | nil => trivial
  | cons piece rest ih =>
    obtain ⟨ends, later⟩ : piece.EndsBefore (textOf (rest ++ after)).head? ∧
      Aligned (rest ++ after) := aligned
    refine ⟨?_, ih later⟩
    by_cases last : textOf rest = []
    · rw [last]
      exact ends.at_end
    · rwa [textOf_append, head?_append_of_ne_nil last] at ends

theorem textOf_ne_nil (aligned : Aligned found) (filled : found ≠ []) : textOf found ≠ [] := by
  cases found with
  | nil => exact absurd rfl filled
  | cons piece rest =>
    obtain ⟨⟨c, tail, starts, _⟩, _⟩ := aligned
    simp [starts]

/-- Aligned pieces stay so next to each other if the last ones in front end where the others
begin. -/
theorem append (front : Aligned before) (back : Aligned after)
    (ends : ∀ piece, before.getLast? = some piece → piece.EndsBefore (textOf after).head?) :
    Aligned (before ++ after) := by
  induction before with
  | nil => exact back
  | cons piece rest ih =>
    obtain ⟨here, later⟩ := front
    cases rest with
    | nil => exact ⟨ends piece rfl, back⟩
    | cons second rest =>
      have filled := later.textOf_ne_nil (List.cons_ne_nil _ _)
      have next : (textOf (second :: rest ++ after)).head? = (textOf (second :: rest)).head? := by
        rw [textOf_append, head?_append_of_ne_nil filled]
      exact ⟨next ▸ here, ih later fun last found => ends last (by rwa [List.getLast?_cons_cons])⟩

/-- A stretch of aligned pieces is aligned. -/
theorem of_stretch (aligned : Aligned found) (inside : before <:+: found) : Aligned before := by
  obtain ⟨front, back, rfl⟩ := inside
  exact of_append_right (of_append_left aligned)

end Aligned

/-- A text is cut between two of its pieces or inside one of them; a character of code cannot be
cut. -/
theorem cut_pieces {found : List Piece} {before after : Text}
    (whole : textOf found = before ++ after) :
    (∃ left right, found = left ++ right ∧ textOf left = before ∧ textOf right = after) ∨
      ∃ left piece right front back, found = left ++ piece :: right ∧
        piece.text = front ++ back ∧ front ≠ [] ∧ back ≠ [] ∧
        before = textOf left ++ front ∧ after = back ++ textOf right := by
  induction found generalizing before with
  | nil =>
    obtain ⟨rfl, rfl⟩ := List.append_eq_nil_iff.mp whole.symm
    exact .inl ⟨[], [], rfl, rfl, rfl⟩
  | cons piece rest ih =>
    rw [textOf_cons] at whole
    rcases List.append_eq_append_iff.mp whole with ⟨more, longer, inside⟩ | ⟨back, inside, shorter⟩
    · rcases ih inside with ⟨left, right, rfl, rfl, ends⟩ |
        ⟨left, cut, right, front, back, rfl, parts, filled, left', rfl, ends⟩
      · exact .inl ⟨piece :: left, right, rfl, longer.symm, ends⟩
      · refine .inr ⟨piece :: left, cut, right, front, back, rfl, parts, filled, left', ?_, ends⟩
        rw [longer, textOf_cons, List.append_assoc]
    · by_cases start : before = []
      · left
        refine ⟨[], piece :: rest, rfl, start.symm, ?_⟩
        rw [textOf_cons, whole, start, List.nil_append]
      · by_cases done : back = []
        · left
          refine ⟨[piece], rest, rfl, ?_, ?_⟩
          · simp [inside, done]
          · rw [shorter, done, List.nil_append]
        · right
          exact ⟨[], piece, rest, before, back, rfl, inside, start, done, rfl, shorter⟩

end TypedClient
