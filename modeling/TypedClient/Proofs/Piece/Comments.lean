import Mathlib.Data.List.Infix
import Mathlib.Data.List.TakeWhile
import TypedClient.Proofs.Piece.Closed
import TypedClient.TypeText.Object

/-!
Comments taken out. Main statements: brackets are matched in the pieces without comments as in all of
them, and trimming a text makes no difference to what is left of it without its comments.
-/

namespace TypedClient

open Text

/-- The pieces without the comments. -/
def withoutComments (found : List Piece) : List Piece := found.flatMap Piece.uncommented

section Pieces

variable {found after : List Piece}

@[simp] theorem withoutComments_nil : withoutComments [] = [] := rfl

@[simp] theorem withoutComments_code (c : Char) (rest : List Piece) :
    withoutComments (.code c :: rest) = .code c :: withoutComments rest := rfl

@[simp] theorem withoutComments_quoted (span : Text) (rest : List Piece) :
    withoutComments (.quoted span :: rest) = .quoted span :: withoutComments rest := rfl

theorem withoutComments_cons (piece : Piece) (rest : List Piece) :
    withoutComments (piece :: rest) = piece.uncommented ++ withoutComments rest := rfl

theorem withoutComments_append (front back : List Piece) :
    withoutComments (front ++ back) = withoutComments front ++ withoutComments back :=
  List.flatMap_append

/-- A block comment leaves a space behind, a line comment nothing. -/
theorem uncommented_comment (span : Text) :
    (Piece.comment span).uncommented = [.code ' '] ∨ (Piece.comment span).uncommented = [] := by
  unfold Piece.uncommented
  split
  · exact .inl rfl
  · exact .inr rfl
  · rename_i other
    exact absurd rfl (other span)

theorem stripComments_textOf (aligned : Aligned found) :
    stripComments (textOf found) = textOf (withoutComments found) := by
  rw [stripComments, pieces_textOf aligned, withoutComments, textOf_flatMap_uncommented]

theorem withoutComments_twice (found : List Piece) :
    withoutComments (withoutComments found) = withoutComments found := by
  induction found with
  | nil => rfl
  | cons piece rest ih =>
    cases piece with
    | code c => rw [withoutComments_code, withoutComments_code, ih]
    | quoted span => rw [withoutComments_quoted, withoutComments_quoted, ih]
    | comment span =>
      rw [withoutComments_cons]
      rcases uncommented_comment span with space | none
      · rw [space, List.singleton_append, withoutComments_code, ih]
      · rw [none, List.nil_append, ih]

/-- Pieces that are passed over along with comments. -/
theorem dropWhile_withoutComments {p : Piece → Bool} (comments : ∀ span, p (.comment span) = true)
    (space : p (.code ' ') = true) (found : List Piece) :
    (withoutComments found).dropWhile p = withoutComments (found.dropWhile p) := by
  induction found with
  | nil => rfl
  | cons piece rest ih =>
    cases piece with
    | code c =>
      rw [withoutComments_code, List.dropWhile_cons, List.dropWhile_cons]
      split
      · exact ih
      · rfl
    | quoted span =>
      rw [withoutComments_quoted, List.dropWhile_cons, List.dropWhile_cons]
      split
      · exact ih
      · rfl
    | comment span =>
      rw [List.dropWhile_cons, if_pos (comments span), ← ih, withoutComments_cons]
      rcases uncommented_comment span with left | left
      · rw [left, List.singleton_append, List.dropWhile_cons, if_pos space]
      · rw [left, List.nil_append]

theorem skipTrivia_withoutComments (found : List Piece) :
    skipTrivia (withoutComments found) = withoutComments (skipTrivia found) :=
  dropWhile_withoutComments (fun _ => rfl) rfl found

theorem splitClose_code (opening closing : Char) (depth : Nat) (c : Char) (rest : List Piece) :
    splitClose opening closing depth (.code c :: rest) =
      if c = closing ∧ c ≠ opening ∧ depth = 0 then some ([], rest)
      else (splitClose opening closing
          (if c = opening then depth + 1 else if c = closing then depth - 1 else depth) rest).map
        fun (inner, after) => (.code c :: inner, after) := by
  by_cases opens : c = opening
  · rw [if_neg fun same => same.2.1 opens, if_pos opens]
    exact if_pos opens
  · by_cases closes : c = closing
    · cases depth with
      | zero =>
        rw [if_pos ⟨closes, opens, rfl⟩]
        exact (if_neg opens).trans (if_pos closes)
      | succ depth =>
        rw [if_neg fun same => Nat.succ_ne_zero depth same.2.2, if_neg opens, if_pos closes]
        exact (if_neg opens).trans (if_pos closes)
    · rw [if_neg fun same => closes same.1, if_neg opens, if_neg closes]
      exact (if_neg opens).trans (if_neg closes)

theorem splitClose_quoted (opening closing : Char) (depth : Nat) (span : Text)
    (rest : List Piece) :
    splitClose opening closing depth (.quoted span :: rest) =
      (splitClose opening closing depth rest).map fun (inner, after) =>
        (.quoted span :: inner, after) := rfl

theorem splitClose_comment (opening closing : Char) (depth : Nat) (span : Text)
    (rest : List Piece) :
    splitClose opening closing depth (.comment span :: rest) =
      (splitClose opening closing depth rest).map fun (inner, after) =>
        (.comment span :: inner, after) := rfl

theorem splitClose_other {opening closing : Char} {piece : Piece} (opens : piece ≠ .code opening)
    (closes : piece ≠ .code closing) (depth : Nat) (rest : List Piece) :
    splitClose opening closing depth (piece :: rest) =
      (splitClose opening closing depth rest).map fun (inner, after) => (piece :: inner, after) := by
  cases piece with
  | quoted span => rfl
  | comment span => rfl
  | code c =>
    have other : c ≠ opening ∧ c ≠ closing := ⟨mt (congrArg _) opens, mt (congrArg _) closes⟩
    rw [splitClose_code, if_neg fun ends => other.2 ends.1, if_neg other.1, if_neg other.2]

theorem splitClose_withoutComments {opening closing : Char} (opens : opening ≠ ' ')
    (closes : closing ≠ ' ') (depth : Nat) (found : List Piece) :
    splitClose opening closing depth (withoutComments found) =
      (splitClose opening closing depth found).map fun (inner, after) =>
        (withoutComments inner, withoutComments after) := by
  induction found generalizing depth with
  | nil => rfl
  | cons piece rest ih =>
    cases piece with
    | code c =>
      rw [withoutComments_code, splitClose_code, splitClose_code]
      split
      · rfl
      · rw [ih, Option.map_map, Option.map_map]
        rfl
    | quoted span =>
      rw [withoutComments_quoted, splitClose_quoted, splitClose_quoted, ih, Option.map_map,
        Option.map_map]
      rfl
    | comment span =>
      rw [splitClose_comment, Option.map_map, withoutComments_cons]
      rcases uncommented_comment span with left | left
      · have notOpening : Piece.code ' ' ≠ .code opening := by simpa using opens.symm
        have notClosing : Piece.code ' ' ≠ .code closing := by simpa using closes.symm
        rw [left, List.singleton_append, splitClose_other notOpening notClosing, ih,
          Option.map_map]
        simp only [Function.comp_def, withoutComments_cons, left, List.singleton_append]
      · rw [left, List.nil_append, ih]
        simp only [Function.comp_def, withoutComments_cons, left, List.nil_append]

end Pieces

section Blanks

variable {quote : Char} {tail text blanks : Text}

/-- Where a block comment takes all of a text, it takes something of what is added to the text, if
anything, and leaves the rest. -/
theorem blockTail_append_suffix (whole : (Piece.blockTail tail).2 = []) (more : Text) :
    (Piece.blockTail (tail ++ more)).2 <:+ more := by
  fun_induction Piece.blockTail tail with
  | case1 => exact ⟨_, Piece.blockTail_append more⟩
  | case2 rest =>
    have done : rest = [] := whole
    rw [done]
    exact List.suffix_refl more
  | case3 c rest inside span after same ih =>
    rw [same] at ih
    by_cases mark : c = '*' ∧ (rest ++ more).head? = some '/'
    · obtain ⟨rfl, slash⟩ := mark
      cases rest with
      | nil =>
        obtain ⟨behind, rfl⟩ := List.head?_eq_some_iff.mp slash
        exact List.suffix_cons _ _
      | cons d rest =>
        cases slash
        exact absurd rfl (inside rest rfl)
    · rw [List.cons_append, Piece.blockTail_cons fun star slash => mark ⟨star, slash⟩]
      exact ih whole

theorem quotedTail_append_suffix (mark : quote ≠ '\\')
    (whole : (Piece.quotedTail quote tail).2 = []) (more : Text) :
    (Piece.quotedTail quote (tail ++ more)).2 <:+ more := by
  fun_induction Piece.quotedTail quote tail with
  | case1 => exact ⟨_, Piece.quotedTail_append quote more⟩
  | case2 c rest span after same ih =>
    rw [same] at ih
    rw [List.cons_append, List.cons_append, Piece.quotedTail]
    exact ih whole
  | case3 rest _ =>
    have done : rest = [] := whole
    rw [done, List.singleton_append, Piece.quotedTail_cons mark, if_pos rfl]
  | case4 c rest alone other span after same ih =>
    rw [same] at ih
    by_cases escape : c = '\\'
    · subst escape
      cases rest with
      | cons d rest => exact absurd rfl (alone d rest rfl)
      | nil =>
        cases more with
        | nil => simp [Piece.quotedTail, other]
        | cons d more =>
          rw [List.singleton_append, Piece.quotedTail]
          have later : (Piece.quotedTail quote more).2 <:+ more :=
            ⟨_, Piece.quotedTail_append quote more⟩
          exact later.trans (List.suffix_cons d more)
    · rw [List.cons_append, Piece.quotedTail_cons escape, if_neg other]
      exact ih whole

theorem stripComments_append {run : Text} (inert : run.all Piece.isInert = true) (rest : Text) :
    stripComments (run ++ rest) = run ++ stripComments rest := by
  rw [stripComments, pieces_append_code inert, List.flatMap_append]
  have kept : (run.map Piece.code).flatMap Piece.withoutComment = run := by
    induction run with
    | nil => rfl
    | cons c run ih =>
      rw [List.all_cons, Bool.and_eq_true] at inert
      rw [List.map_cons, List.flatMap_cons, ih inert.2]
      rfl
  rw [kept]
  rfl

theorem stripComments_nil : stripComments [] = [] := by
  rw [stripComments, pieces]
  rfl

theorem stripComments_of_blanks (blank : blanks.all isBlank = true) :
    stripComments blanks = blanks := by
  have free := stripComments_append (all_imp (fun _ => isInert_of_isBlank) blank) []
  rwa [List.append_nil, stripComments_nil, List.append_nil] at free

theorem stripComments_cons (c : Char) (rest : Text) :
    stripComments (c :: rest) =
      (Piece.first c rest).1.withoutComment ++ stripComments (Piece.first c rest).2 := by
  rw [stripComments, pieces_cons, List.flatMap_cons]
  rfl

theorem blank_of_suffix {left : Text} (ending : left <:+ blanks)
    (blank : blanks.all isBlank = true) : left.all isBlank = true :=
  List.all_eq_true.mpr fun c member => List.all_eq_true.mp blank c (ending.subset member)

/-- What the last piece of a text becomes, and leaves, when blanks are added to the text. -/
theorem first_append_blanks {c : Char} (whole : (Piece.first c tail).2 = [])
    (blank : blanks.all isBlank = true) :
    (Piece.first c (tail ++ blanks)).2.all isBlank = true ∧
      ∃ kept, kept.all isBlank = true ∧ (Piece.first c (tail ++ blanks)).1.withoutComment =
        (Piece.first c tail).1.withoutComment ++ kept := by
  rcases Piece.first_cases c tail with ⟨line, rfl, rfl⟩ | ⟨block, rfl, rfl⟩ | mark | ⟨plain, alone⟩
  · have inside : ∀ c ∈ line, Piece.inLine c = true := List.dropWhile_eq_nil_iff.mp whole
    have behind : (Piece.first '/' ('/' :: line ++ blanks)).2 = blanks.dropWhile Piece.inLine :=
      List.dropWhile_append_of_pos inside
    refine ⟨?_, [], rfl, rfl⟩
    rw [behind]
    exact blank_of_suffix (List.dropWhile_suffix _) blank
  · refine ⟨?_, [], rfl, rfl⟩
    exact blank_of_suffix (blockTail_append_suffix whole blanks) blank
  · rw [Piece.first_of_quote mark] at whole
    rw [Piece.first_of_quote mark, Piece.first_of_quote mark]
    have ending := quotedTail_append_suffix (Piece.ne_backslash_of_isQuote mark) whole blanks
    refine ⟨blank_of_suffix ending blank, ?_⟩
    have before := Piece.quotedTail_append c tail
    have after := Piece.quotedTail_append c (tail ++ blanks)
    rw [whole, List.append_nil] at before
    generalize (Piece.quotedTail c (tail ++ blanks)).1 = span at after
    generalize (Piece.quotedTail c (tail ++ blanks)).2 = left at after ending
    obtain ⟨kept, rfl⟩ := ending
    rw [← List.append_assoc] at after
    rw [List.all_append, Bool.and_eq_true] at blank
    exact ⟨kept, blank.1, by simp [Piece.withoutComment, Piece.text, before,
      List.append_cancel_right after]⟩
  · rw [Piece.first_of_code plain alone] at whole
    have done : tail = [] := whole
    subst done
    have ahead : c = '/' → ([] ++ blanks).head? ≠ some '/' ∧ ([] ++ blanks).head? ≠ some '*' := by
      intro _
      cases blanks with
      | nil => simp
      | cons d blanks =>
        rw [List.all_cons, Bool.and_eq_true] at blank
        constructor
        · rintro same
          cases same
          exact absurd blank.1 (by decide)
        · rintro same
          cases same
          exact absurd blank.1 (by decide)
    rw [Piece.first_of_code plain ahead, Piece.first_of_code plain alone]
    exact ⟨blank, [], rfl, rfl⟩

/-- Blanks behind a text become blanks behind what is left of it. -/
theorem stripComments_append_blanks (blank : blanks.all isBlank = true) (text : Text) :
    ∃ kept, kept.all isBlank = true ∧
      stripComments (text ++ blanks) = stripComments text ++ kept := by
  fun_induction pieces text with
  | case1 =>
    refine ⟨blanks, blank, ?_⟩
    rw [List.nil_append, stripComments_of_blanks blank, stripComments_nil, List.nil_append]
  | case2 c tail ih =>
    by_cases last : (Piece.first c tail).2 = []
    · obtain ⟨left, kept, inBlanks, same⟩ := first_append_blanks last blank
      refine ⟨kept ++ (Piece.first c (tail ++ blanks)).2, ?_, ?_⟩
      · rw [List.all_append, inBlanks, left]
        rfl
      · rw [List.cons_append, stripComments_cons, stripComments_cons, last, same,
          stripComments_of_blanks left, stripComments_nil]
        simp
    · obtain ⟨kept, inBlanks, same⟩ := ih
      refine ⟨kept, inBlanks, ?_⟩
      rw [List.cons_append, stripComments_cons, Piece.first_append_right last, same,
        stripComments_cons, List.append_assoc]

/-- Trimming makes no difference to a text without comments that is trimmed itself. -/
theorem trim_stripComments_trim (text : Text) :
    trim (stripComments (trim text)) = trim (stripComments text) := by
  obtain ⟨before, opening, start⟩ := exists_blanks_trimStart text
  obtain ⟨after, closing, ending⟩ := exists_trimEnd_blanks (trimStart text)
  obtain ⟨kept, blank, left⟩ := stripComments_append_blanks closing (trim text)
  have whole : stripComments text = before ++ (stripComments (trim text) ++ kept) := by
    rw [← left, ← stripComments_append (all_imp (fun _ => isInert_of_isBlank) opening)]
    exact congrArg stripComments (start.trans (congrArg (before ++ ·) ending))
  rw [whole, trim_of_blanks opening, trim_append_blanks blank]

theorem collapseType_trim (text : Text) : collapseType (trim text) = collapseType text :=
  congrArg collapseBlanks (trim_stripComments_trim text)

/-- The comments in it make no difference to a type text on a single line. -/
theorem collapseType_withoutComments {found : List Piece} (aligned : Aligned found) :
    collapseType (textOf (withoutComments found)) = collapseType (textOf found) := by
  have again : Aligned (withoutComments found) := aligned.uncommented
  rw [collapseType, collapseType, stripComments_textOf again, stripComments_textOf aligned,
    withoutComments_twice]

end Blanks

section Braces

/-- A closing bracket is found whatever stands behind it. -/
theorem splitClose_of_append {opening closing : Char} {depth : Nat}
    {found inner after : List Piece}
    (split : splitClose opening closing depth found = some (inner, after)) (other : List Piece) :
    splitClose opening closing depth (inner ++ .code closing :: other) = some (inner, other) := by
  induction found generalizing depth inner with
  | nil => contradiction
  | cons piece rest ih =>
    cases piece with
    | code c =>
      rw [splitClose_code] at split
      by_cases ends : c = closing ∧ c ≠ opening ∧ depth = 0
      · rw [if_pos ends] at split
        cases split
        rw [List.nil_append, splitClose_code, if_pos ⟨rfl, ends.1 ▸ ends.2.1, ends.2.2⟩]
      · rw [if_neg ends] at split
        obtain ⟨⟨more, _⟩, later, same⟩ := Option.map_eq_some_iff.mp split
        cases same
        rw [List.cons_append, splitClose_code, if_neg ends, ih later]
        rfl
    | quoted span =>
      rw [splitClose_quoted] at split
      obtain ⟨⟨more, _⟩, later, same⟩ := Option.map_eq_some_iff.mp split
      cases same
      rw [List.cons_append, splitClose_quoted, ih later]
      rfl
    | comment span =>
      rw [splitClose_comment] at split
      obtain ⟨⟨more, _⟩, later, same⟩ := Option.map_eq_some_iff.mp split
      cases same
      rw [List.cons_append, splitClose_comment, ih later]
      rfl

/-- The inside of a brace pair that opens a text is the same whatever follows the pair. -/
theorem splitClose_pieces {inner after : List Piece} {text : Text}
    (split : splitClose '{' '}' 0 (pieces text) = some (inner, after)) (other : Text) :
    splitClose '{' '}' 0 (pieces (textOf inner ++ '}' :: other)) = some (inner, pieces other) := by
  have aligned : Aligned (inner ++ .code '}' :: after) :=
    splitClose_append split ▸ aligned_pieces text
  have joined : Aligned (inner ++ .code '}' :: pieces other) := by
    refine aligned.of_append_left.append
      (Aligned.append_code (show ("\x7d" : Text).all Piece.isInert = true from rfl)
        (aligned_pieces other)) fun piece last => ?_
    obtain ⟨before, rfl⟩ := List.getLast?_eq_some_iff.mp last
    rw [List.append_assoc] at aligned
    exact aligned.of_append_right.1
  have scanned := pieces_textOf joined
  rw [textOf_append, textOf_cons, textOf_pieces] at scanned
  rw [← splitClose_of_append split (pieces other), ← scanned]
  rfl

/-- The inside of the brace pair that opened before a text, with nothing but blanks behind it. -/
def closedAlone? (text : Text) : Option Text :=
  match splitClose '{' '}' 0 (pieces text) with
  | some (inner, after) => if allBlank (textOf after) then some (textOf inner) else none
  | none => none

theorem textOf_of_splitClose {inner after : List Piece} {text : Text}
    (split : splitClose '{' '}' 0 (pieces text) = some (inner, after)) :
    text = textOf inner ++ '}' :: textOf after := by
  rw [← textOf_pieces text, splitClose_append split]
  simp [Piece.text]

theorem closedAlone?_append {blanks : Text} (blank : blanks.all isBlank = true) (text : Text) :
    closedAlone? (text ++ blanks) = closedAlone? text := by
  unfold closedAlone?
  cases split : splitClose '{' '}' 0 (pieces (text ++ blanks)) with
  | none =>
    cases shorter : splitClose '{' '}' 0 (pieces text) with
    | none => rfl
    | some pair =>
      obtain ⟨inner, after⟩ := pair
      have longer := splitClose_pieces shorter (textOf after ++ blanks)
      rw [← List.cons_append, ← List.append_assoc, ← textOf_of_splitClose shorter, split] at longer
      contradiction
  | some pair =>
    obtain ⟨inner, after⟩ := pair
    have inText : ∃ left, text = textOf inner ++ '}' :: left ∧ textOf after = left ++ blanks := by
      rcases List.append_eq_append_iff.mp (textOf_of_splitClose split) with
        ⟨front, opens, ends⟩ | ⟨back, whole, ends⟩
      · have listed : '}' ∈ blanks := ends ▸ List.mem_append_right front List.mem_cons_self
        exact absurd (List.all_eq_true.mp blank '}' listed) (by decide)
      · cases back with
        | nil =>
          cases blanks with
          | nil => contradiction
          | cons c blanks =>
            cases ends
            exact absurd blank (by simp [show isBlank '}' = false from rfl])
        | cons c left =>
          obtain ⟨rfl, behind⟩ := List.cons.inj ends
          exact ⟨left, whole, behind⟩
    obtain ⟨left, rfl, behind⟩ := inText
    rw [splitClose_pieces split left]
    dsimp only
    rw [behind, textOf_pieces, allBlank, List.all_append, blank, Bool.and_true]
    rfl

/-- Trimming makes no difference to whether a text is one literal in braces. -/
theorem braced?_trim (text : Text) : braced? (trim text) = braced? text := by
  obtain ⟨blanks, blank, ending⟩ := exists_trimEnd_blanks (trimStart text)
  have opened : trimStart text = trim text ++ blanks := ending
  unfold braced?
  rw [trimStart_trim, opened]
  cases trimmed : trim text with
  | nil =>
    cases blanks with
    | nil => rfl
    | cons c rest =>
      have other : c ≠ '{' := by
        rintro rfl
        exact absurd blank (by simp [show isBlank '{' = false from rfl])
      simp [other]
  | cons c rest =>
    by_cases brace : c = '{'
    · subst brace
      exact (closedAlone?_append blank rest).symm
    · simp [brace]

end Braces

end TypedClient
