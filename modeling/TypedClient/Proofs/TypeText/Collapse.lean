import TypedClient.Proofs.Piece.Stripping
import TypedClient.Proofs.TypeText.OneLine

/-!
What putting a type text on one line leaves of it. Main statement: the characters of code that are
no blanks and the quoted spans stay in their order, and the spans stay byte for byte exactly if each
blank in them is one space in front of something else.
-/

namespace TypedClient

open Text Utf8

/-- What a text is made of between its blanks and comments. -/
def solids (text : Text) : List Piece := (pieces text).filter fun piece => !piece.isSpacing

/-- The characters of code that are no blanks. -/
def solidCode (text : Text) : Text :=
  (solids text).filterMap fun
    | .code c => some c
    | _ => none

/-- A piece once its blanks are collapsed; those at the end of a span that is still open are gone. -/
def Piece.onLine : Piece → Piece
  | quoted span => quoted (collapseBlanks (trimEnd span))
  | piece => piece

/-- Whether every blank is one space with a character behind it that is no blank. -/
def spacesAlone : Text → Bool
  | [] => true
  | c :: rest =>
    (!isBlank c || (c == ' ' && rest.head?.any fun next => !isBlank next)) && spacesAlone rest

section Spans

variable {quote c : Char} {tail rest : Text}

theorem quotedTail_blank (mark : Piece.isQuote quote = true) (blank : isBlank c = true)
    (rest : Text) : (Piece.quotedTail quote (c :: rest)).2 = (Piece.quotedTail quote rest).2 := by
  have plain := ne_marks_of_isBlank mark blank
  rw [Piece.quotedTail_cons plain.1, if_neg plain.2]

/-- How many blanks a text begins with makes no difference to where a span ends in it. -/
theorem quotedTail_dropBlanks (mark : Piece.isQuote quote = true) (rest : Text) :
    (Piece.quotedTail quote (collapseBlanks (rest.dropWhile isBlank))).2 =
      (Piece.quotedTail quote (collapseBlanks rest)).2 := by
  cases rest with
  | nil => rfl
  | cons c rest =>
    cases blank : isBlank c with
    | false => rw [List.dropWhile_cons_of_neg (by simp [blank])]
    | true =>
      rw [List.dropWhile_cons_of_pos blank, collapseBlanks_blank blank,
        quotedTail_blank mark (by decide)]

/-- What follows a span is what follows it once the blanks are collapsed. -/
theorem quotedTail_collapseBlanks_after (mark : Piece.isQuote quote = true) (tail : Text) :
    (Piece.quotedTail quote (collapseBlanks tail)).2 =
      collapseBlanks (Piece.quotedTail quote tail).2 := by
  fun_induction Piece.quotedTail quote tail with
  | case1 => rfl
  | case2 c rest span after same ih =>
    rw [same] at ih
    rw [collapseBlanks_solid (by decide)]
    cases blank : isBlank c with
    | true =>
      rw [collapseBlanks_blank blank, Piece.quotedTail]
      exact (quotedTail_dropBlanks mark rest).trans ih
    | false =>
      rw [collapseBlanks_solid blank, Piece.quotedTail]
      exact ih
  | case3 rest _ =>
    rw [collapseBlanks_solid (solid_of_isQuote mark),
      Piece.quotedTail_cons (Piece.ne_backslash_of_isQuote mark), if_pos rfl]
  | case4 c rest alone other span after same ih =>
    rw [same] at ih
    by_cases escape : c = '\\'
    · subst escape
      cases rest with
      | cons d rest => exact absurd rfl (alone d rest rfl)
      | nil =>
        cases same
        simp [collapseBlanks, Piece.quotedTail, other, show isBlank '\\' = false from rfl]
    · cases blank : isBlank c with
      | true =>
        rw [collapseBlanks_blank blank, quotedTail_blank mark (by decide)]
        exact (quotedTail_dropBlanks mark rest).trans ih
      | false =>
        rw [collapseBlanks_solid blank, Piece.quotedTail_cons escape, if_neg other]
        exact ih

/-- A span that takes all of a text takes all of what the text begins with. -/
theorem quotedTail_of_whole (mark : Piece.isQuote quote = true)
    (whole : (Piece.quotedTail quote (tail ++ rest)).2 = []) :
    (Piece.quotedTail quote tail).2 = [] := by
  by_contra left
  have closed := Piece.endsQuoted_of_rest left
  have read := Piece.quotedTail_of_endsQuoted (Piece.ne_backslash_of_isQuote mark) closed
    ((Piece.quotedTail quote tail).2 ++ rest)
  rw [← List.append_assoc, Piece.quotedTail_append] at read
  rw [read] at whole
  exact left (List.append_eq_nil_iff.mp whole).1

theorem first_of_whole (mark : Piece.isQuote quote = true)
    (whole : (Piece.quotedTail quote tail).2 = []) :
    Piece.first quote tail = (.quoted (quote :: tail), []) := by
  have parts := Piece.quotedTail_append quote tail
  rw [whole, List.append_nil] at parts
  rw [Piece.first_of_quote mark, whole, parts]

end Spans

section Ends

variable {c : Char} {front rest text : Text}

theorem trimEnd_append_of_filled (front : Text) (filled : trimEnd rest ≠ []) :
    trimEnd (front ++ rest) = front ++ trimEnd rest := by
  obtain ⟨blanks, blank, whole⟩ := exists_trimEnd_blanks rest
  have stops : (front ++ trimEnd rest).getLast?.all (fun c => !isBlank c) = true := by
    rw [List.getLast?_append_of_ne_nil _ filled, trimEnd, List.getLast?_reverse]
    exact head?_dropWhile_stops isBlank _
  conv_lhs => rw [whole, ← List.append_assoc, trimEnd_append_blanks blank]
  exact trimEnd_of_stop stops

theorem trimEnd_append_of_last (last : front.getLast? = some c) (solid : isBlank c = false)
    (rest : Text) : trimEnd (front ++ rest) = front ++ trimEnd rest := by
  by_cases filled : trimEnd rest = []
  · obtain ⟨blanks, blank, whole⟩ := exists_trimEnd_blanks rest
    rw [filled, List.nil_append] at whole
    rw [filled, whole, List.append_nil, trimEnd_append_blanks blank]
    exact trimEnd_of_stop (by rw [last]; simp [solid])
  · exact trimEnd_append_of_filled front filled

theorem trimEnd_solid (solid : isBlank c = false) (rest : Text) :
    trimEnd (c :: rest) = c :: trimEnd rest := by
  have last : [c].getLast? = some c := rfl
  exact trimEnd_append_of_last last solid rest

end Ends

section Solids

variable {c : Char} {rest text : Text}

@[simp] theorem solids_nil : solids [] = [] := by
  rw [solids, pieces]
  rfl

theorem solids_cons (c : Char) (rest : Text) :
    solids (c :: rest) =
      (if (Piece.first c rest).1.isSpacing then [] else [(Piece.first c rest).1]) ++
        solids (Piece.first c rest).2 := by
  rw [solids, pieces_cons, List.filter_cons]
  cases (Piece.first c rest).1.isSpacing <;> rfl

theorem solids_blank (blank : isBlank c = true) (rest : Text) :
    solids (c :: rest) = solids rest := by
  obtain ⟨plain, other⟩ := plain_of_isBlank blank
  rw [solids_cons, Piece.first_of_code plain fun slash => absurd slash other, Piece.isSpacing,
    if_pos blank]
  rfl

theorem solids_blanks {blanks : Text} (blank : blanks.all isBlank = true) (text : Text) :
    solids (blanks ++ text) = solids text := by
  induction blanks with
  | nil => rfl
  | cons c rest ih =>
    rw [List.all_cons, Bool.and_eq_true] at blank
    rw [List.cons_append, solids_blank blank.1, ih blank.2]

theorem solids_stripComments (text : Text) : solids (stripComments text) = solids text := by
  have left (piece : Piece) : piece.uncommented.filter (fun piece => !piece.isSpacing) =
      [piece].filter fun piece => !piece.isSpacing := by
    cases piece with
    | code c => rfl
    | quoted span => rfl
    | comment span =>
      rcases uncommented_comment span with space | none
      · rw [space]; rfl
      · rw [none]; rfl
  rw [solids, pieces_stripComments, solids]
  induction pieces text with
  | nil => rfl
  | cons piece rest ih =>
    rw [List.flatMap_cons, List.filter_append, ih, left, ← List.filter_append]
    rfl

/-- A blank of code goes, or leaves a space that is no solid piece. -/
theorem solids_collapse_blank (blank : isBlank c = true) (rest : Text) :
    solids (collapseBlanks (trimEnd (c :: rest))) = solids (collapseBlanks (trimEnd rest)) := by
  by_cases empty : trimEnd rest = []
  · obtain ⟨blanks, allBlank, whole⟩ := exists_trimEnd_blanks rest
    have run : (c :: rest).all isBlank = true := by
      rw [List.all_cons, blank, whole, empty, List.nil_append, allBlank]
      rfl
    have cut : trimEnd (c :: rest) = [] := trimEnd_append_blanks run []
    rw [cut, empty]
  · have kept : trimEnd (c :: rest) = c :: trimEnd rest := trimEnd_append_of_filled [c] empty
    rw [kept, collapseBlanks, if_pos blank]
    split
    · rfl
    · exact solids_blank (by decide) _

/-- A slash still stands in front of a blank or what it stood in front of. -/
theorem head?_collapseBlanks_ne {mark : Char} (other : mark ≠ ' ') (apart : rest.head? ≠ some mark) :
    (collapseBlanks (trimEnd rest)).head? ≠ some mark := by
  rw [head?_collapseBlanks]
  obtain ⟨after, whole⟩ := trimEnd_opens rest
  cases first : trimEnd rest with
  | nil => nofun
  | cons d more =>
    rw [← whole, first, List.cons_append, List.head?_cons] at apart
    cases blank : isBlank d with
    | true => simpa [blank] using other.symm
    | false => simpa [blank] using apart

theorem solids_collapse_code (solid : isBlank c = false) (plain : Piece.isQuote c = false)
    (alone : c = '/' → rest.head? ≠ some '/' ∧ rest.head? ≠ some '*') :
    solids (collapseBlanks (trimEnd (c :: rest))) =
      .code c :: solids (collapseBlanks (trimEnd rest)) := by
  have apart (slash : c = '/') : (collapseBlanks (trimEnd rest)).head? ≠ some '/' ∧
      (collapseBlanks (trimEnd rest)).head? ≠ some '*' :=
    ⟨head?_collapseBlanks_ne (by decide) (alone slash).1,
      head?_collapseBlanks_ne (by decide) (alone slash).2⟩
  rw [trimEnd_solid solid, collapseBlanks_solid solid, solids_cons,
    Piece.first_of_code plain apart, Piece.isSpacing, solid]
  rfl

/-- A closed span ends at its quote, which is no blank. -/
theorem solids_collapse_closed {span after : Text} (mark : Piece.isQuote c = true)
    (closed : Piece.endsQuoted c span = true) :
    solids (collapseBlanks (trimEnd (c :: (span ++ after)))) =
      (Piece.quoted (c :: span)).onLine :: solids (collapseBlanks (trimEnd after)) := by
  have solid := solid_of_isQuote mark
  have ending := Piece.getLast?_of_endsQuoted closed
  have stays : trimEnd span = span := trimEnd_of_stop (by rw [ending]; simp [solid])
  have still : Piece.endsQuoted c (collapseBlanks span) = true :=
    (endsQuoted_collapseBlanks mark span).trans closed
  rw [trimEnd_solid solid, trimEnd_append_of_last ending solid, collapseBlanks_solid solid,
    collapseBlanks_append_of_last ending solid, solids_cons, Piece.first_of_quote mark,
    Piece.quotedTail_of_endsQuoted (Piece.ne_backslash_of_isQuote mark) still, Piece.onLine,
    trimEnd_solid solid, stays, collapseBlanks_solid solid]
  rfl

/-- A span that takes the rest of a text, be it closed or not, still does. -/
theorem solids_collapse_whole (mark : Piece.isQuote c = true)
    (whole : (Piece.quotedTail c rest).2 = []) :
    solids (collapseBlanks (trimEnd (c :: rest))) = [(Piece.quoted (c :: rest)).onLine] := by
  have solid := solid_of_isQuote mark
  have cut : (Piece.quotedTail c (trimEnd rest)).2 = [] := by
    obtain ⟨blanks, _, parts⟩ := exists_trimEnd_blanks rest
    exact quotedTail_of_whole mark (parts ▸ whole)
  have collapsed : (Piece.quotedTail c (collapseBlanks (trimEnd rest))).2 = [] := by
    rw [quotedTail_collapseBlanks_after mark, cut]
    rfl
  rw [Piece.onLine, trimEnd_solid solid, collapseBlanks_solid solid, solids_cons,
    first_of_whole mark collapsed, solids_nil]
  rfl

/-- A text without comments, with its end trimmed and its blanks collapsed. -/
theorem solids_collapseBlanks (free : ∀ span, .comment span ∉ pieces text) :
    solids (collapseBlanks (trimEnd text)) = (solids text).map Piece.onLine := by
  fun_induction pieces text with
  | case1 =>
    rw [solids_nil]
    exact solids_nil
  | case2 c rest ih =>
    have later := ih fun span member => free span (List.mem_cons_of_mem _ member)
    have here (span : Text) : (Piece.first c rest).1 ≠ .comment span := fun same =>
      free span (same ▸ List.mem_cons_self)
    rcases Piece.first_cases c rest with ⟨line, rfl, rfl⟩ | ⟨block, rfl, rfl⟩ | mark | ⟨plain, alone⟩
    · exact absurd rfl (here _)
    · exact absurd rfl (here _)
    · have parts := Piece.quotedTail_append c rest
      rw [solids_cons, Piece.first_of_quote mark]
      by_cases last : (Piece.quotedTail c rest).2 = []
      · rw [last, List.append_nil] at parts
        rw [solids_collapse_whole mark last, last, parts, solids_nil]
        rfl
      · have closed := Piece.endsQuoted_of_rest last
        rw [Piece.first_of_quote mark] at later
        conv_lhs => rw [← parts]
        rw [solids_collapse_closed mark closed, later]
        rfl
    · rw [Piece.first_of_code plain alone] at later
      rw [solids_cons, Piece.first_of_code plain alone, Piece.isSpacing]
      cases blank : isBlank c with
      | true =>
        rw [solids_collapse_blank blank, later]
        rfl
      | false =>
        rw [solids_collapse_code blank plain alone, later]
        rfl

theorem no_comment_stripComments (text span : Text) :
    .comment span ∉ pieces (stripComments text) := by
  rw [pieces_stripComments]
  intro member
  obtain ⟨piece, _, left⟩ := List.mem_flatMap.mp member
  cases piece with
  | code c => exact nomatch List.mem_singleton.mp left
  | quoted inside => exact nomatch List.mem_singleton.mp left
  | comment inside =>
    rcases uncommented_comment inside with space | none
    · rw [space] at left
      exact nomatch List.mem_singleton.mp left
    · rw [none] at left
      contradiction

/-- What stands between blanks and comments stands there on one line, in the same order. -/
theorem solids_collapseType (text : Text) :
    solids (collapseType text) = (solids text).map Piece.onLine := by
  obtain ⟨before, blank, whole⟩ := exists_blanks_trimStart (stripComments text)
  have scanned : pieces (stripComments text) =
      before.map .code ++ pieces (trimStart (stripComments text)) := by
    conv_lhs => rw [whole]
    exact pieces_append_code (all_imp (fun _ => isInert_of_isBlank) blank) _
  have free (span : Text) : .comment span ∉ pieces (trimStart (stripComments text)) := by
    intro member
    refine no_comment_stripComments text span ?_
    rw [scanned]
    exact List.mem_append_right _ member
  have start : solids (trimStart (stripComments text)) = solids text := by
    rw [← solids_stripComments text]
    conv_rhs => rw [whole]
    exact (solids_blanks blank _).symm
  rw [collapseType, trim, solids_collapseBlanks free, start]

end Solids

section Kept

variable {c : Char} {rest : Text}

theorem length_collapseBlanks (text : Text) : (collapseBlanks text).length ≤ text.length := by
  induction text with
  | nil => exact Nat.le_refl 0
  | cons c rest ih =>
    rw [collapseBlanks]
    split
    · split
      · exact Nat.le_succ_of_le ih
      · exact Nat.succ_le_succ ih
    · exact Nat.succ_le_succ ih

/-- A text stays as it is on one line exactly if its blanks are single spaces inside of it. -/
theorem collapseBlanks_trimEnd_iff (text : Text) :
    collapseBlanks (trimEnd text) = text ↔ spacesAlone text = true := by
  induction text with
  | nil => exact iff_of_true rfl rfl
  | cons c rest ih =>
    cases blank : isBlank c with
    | false =>
      rw [trimEnd_solid blank, collapseBlanks_solid blank, List.cons.injEq, ih, spacesAlone, blank]
      simp
    | true =>
      have shorter : (trimEnd rest).length ≤ rest.length := (trimEnd_opens rest).length_le
      by_cases empty : trimEnd rest = []
      · obtain ⟨blanks, allBlank, whole⟩ := exists_trimEnd_blanks rest
        rw [empty, List.nil_append] at whole
        subst whole
        have run : (c :: rest).all isBlank = true := by
          rw [List.all_cons, blank, allBlank]
          rfl
        have cut : trimEnd (c :: rest) = [] := trimEnd_append_blanks run []
        have next : rest.head?.any (fun next => !isBlank next) = false := by
          have first := head?_all_of_all allBlank
          cases rest <;> simp_all
        rw [cut, spacesAlone, blank, next]
        exact iff_of_false nofun (by simp)
      · have kept : trimEnd (c :: rest) = c :: trimEnd rest := trimEnd_append_of_filled [c] empty
        have head : (trimEnd rest).head? = rest.head? := by
          obtain ⟨after, whole⟩ := trimEnd_opens rest
          conv_rhs => rw [← whole, head?_append_of_ne_nil empty]
        rw [kept, collapseBlanks, if_pos blank, head, spacesAlone, blank]
        cases next : rest.head?.any isBlank with
        | true =>
          have solid : rest.head?.any (fun next => !isBlank next) = false := by
            cases rest <;> simp_all
          rw [if_pos rfl, solid]
          refine iff_of_false (fun same => ?_) (by simp)
          have bound := length_collapseBlanks (trimEnd rest)
          rw [same, List.length_cons] at bound
          omega
        | false =>
          have solid : rest.head?.any (fun next => !isBlank next) = true := by
            cases rest with
            | nil => exact absurd rfl empty
            | cons d rest => simpa using next
          rw [if_neg Bool.false_ne_true, solid, List.cons.injEq, ih]
          simp [@eq_comm _ ' ' c]

theorem encode_injective : Function.Injective encode := by
  intro left right same
  have read := decode_encode left
  rw [same, decode_encode] at read
  exact (Except.ok.inj read).symm

theorem quotedSpans_eq_solids (text : Text) :
    quotedSpans text = (solids text).flatMap Piece.spanBytes := by
  rw [quotedSpans_eq, solids]
  induction pieces text with
  | nil => rfl
  | cons piece rest ih =>
    rw [List.flatMap_cons, ih, List.filter_cons]
    cases piece with
    | quoted span => rfl
    | comment span => rfl
    | code c => cases blank : isBlank c <;> simp [Piece.isSpacing, blank, Piece.spanBytes]

/-- Spans on one line are what they were exactly if each of them stays as it is. -/
theorem spanBytes_onLine_iff (found : List Piece) :
    (found.map Piece.onLine).flatMap Piece.spanBytes = found.flatMap Piece.spanBytes ↔
      ∀ span, .quoted span ∈ found → spacesAlone span = true := by
  induction found with
  | nil => exact iff_of_true rfl nofun
  | cons piece rest ih =>
    rw [List.map_cons, List.flatMap_cons, List.flatMap_cons]
    cases piece with
    | code c => simpa [Piece.onLine, Piece.spanBytes] using ih
    | comment span => simpa [Piece.onLine, Piece.spanBytes] using ih
    | quoted span =>
      rw [Piece.onLine, Piece.spanBytes, Piece.spanBytes, List.singleton_append,
        List.singleton_append, List.cons.injEq, encode_injective.eq_iff,
        collapseBlanks_trimEnd_iff, ih]
      simp

theorem mem_solids_quoted {text span : Text} :
    .quoted span ∈ solids text ↔ .quoted span ∈ pieces text := by
  rw [solids, List.mem_filter]
  exact and_iff_left rfl

theorem solidCode_collapseType (text : Text) : solidCode (collapseType text) = solidCode text := by
  rw [solidCode, solidCode, solids_collapseType, List.filterMap_map]
  refine List.filterMap_congr fun piece _ => ?_
  cases piece <;> rfl

end Kept

/-- Putting a type on one line leaves its code and its spans in their order, with the blanks of a
span collapsed like those of code. The spans stay byte for byte exactly if there is nothing in them
to collapse. -/
theorem collapseType_keeps_iff (text : Text) :
    solids (collapseType text) = (solids text).map Piece.onLine ∧
      solidCode (collapseType text) = solidCode text ∧
      (quotedSpans (collapseType text) = quotedSpans text ↔
        ∀ span, .quoted span ∈ pieces text → spacesAlone span = true) := by
  refine ⟨solids_collapseType text, solidCode_collapseType text, ?_⟩
  rw [quotedSpans_eq_solids, quotedSpans_eq_solids, solids_collapseType, spanBytes_onLine_iff]
  exact forall_congr' fun span => imp_congr_left mem_solids_quoted

/-- Two spaces in a literal become one, and the literal type another one. -/
theorem spaced_literal_changes :
    collapseType "\"sold  out\" | \"new\"" = "\"sold out\" | \"new\"".toList ∧
      quotedSpans (collapseType "\"sold  out\" | \"new\"") ≠
        quotedSpans "\"sold  out\" | \"new\"" := by
  decide +kernel

end TypedClient
