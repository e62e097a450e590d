import TypedClient.Description.Basic
import TypedClient.Proofs.Piece.Closed
import TypedClient.Proofs.Text.Lines
import TypedClient.Proofs.Text.Stretch

/-!
Declarations and the pieces of the text they are found in. A declaration is looked for line by line
in the bare text. Main statement: the one that is found lies in code from end to end, or from end to
end inside a block comment or a quoted span; and only in the first case do the scan of the whole text
and the scan that its block is cut out with agree.
-/

namespace TypedClient

open Text

section Readers

/-- What was read of a text begins neither a quoted span nor a comment. -/
def Passes (text rest : Text) : Prop :=
  ∃ part, text = part ++ rest ∧ part.all Piece.isInert = true

namespace Passes

variable {text rest next : Text}

theorem refl (text : Text) : Passes text text := ⟨[], rfl, rfl⟩

theorem trans (first : Passes text next) (second : Passes next rest) : Passes text rest := by
  obtain ⟨front, rfl, inert⟩ := first
  obtain ⟨back, rfl, calm⟩ := second
  refine ⟨front ++ back, (List.append_assoc _ _ _).symm, ?_⟩
  rw [List.all_append, inert, calm]
  rfl

theorem cons {c : Char} (inert : Piece.isInert c = true) (rest : Text) : Passes (c :: rest) rest :=
  ⟨[c], rfl, by simp [inert]⟩

theorem word {word : Text} (inert : word.all Piece.isInert = true)
    (opens : word.isPrefixOf? text = some rest) : Passes text rest :=
  ⟨word, eq_append_of_isPrefixOf? opens, inert⟩

theorem dropWhile {p : Char → Bool} (inert : ∀ c, p c = true → Piece.isInert c = true)
    (text : Text) : Passes text (text.dropWhile p) :=
  ⟨text.takeWhile p, List.takeWhile_append_dropWhile.symm, all_imp inert List.all_takeWhile⟩

end Passes

theorem passes_trimStart (text : Text) : Passes text (trimStart text) := by
  obtain ⟨blanks, blank, whole⟩ := exists_blanks_trimStart text
  exact ⟨blanks, whole, all_imp (fun _ => isInert_of_isBlank) blank⟩

theorem passes_skipWord {word : Text} (inert : word.all Piece.isInert = true) (text : Text) :
    Passes text (skipWord word text) := by
  unfold skipWord afterWord?
  split
  · rename_i c rest opens
    split
    · rename_i blank
      exact ((Passes.word inert opens).trans (.cons (isInert_of_isBlank blank) rest)).trans
        (passes_trimStart rest)
    · exact .refl text
  · exact .refl text

variable {name text line rest : Text}

theorem passes_afterName? {previous : Char} (inert : name.all Piece.isInert = true)
    (found : afterName? previous name text = some rest) : Passes text rest := by
  unfold afterName? at found
  split at found
  · rename_i opens
    split at found
    · cases found
      exact .word inert opens
    · contradiction
  · contradiction

theorem passes_afterBlankName? (inert : name.all Piece.isInert = true)
    (found : afterBlankName? name text = some rest) : Passes text rest := by
  induction text with
  | nil => contradiction
  | cons c text ih =>
    unfold afterBlankName? at found
    split at found
    · rename_i blank
      have first : Passes (c :: text) text := .cons (isInert_of_isBlank blank) text
      rcases Option.or_eq_some_iff.mp found with later | ⟨_, here⟩
      · exact first.trans (ih later)
      · exact first.trans (passes_afterName? inert here)
    · contradiction

theorem passes_afterBrace? (found : afterBrace? text = some rest) : Passes text ('{' :: rest) := by
  have first := passes_trimStart text
  unfold afterBrace? at found
  split at found
  · rename_i opens
    cases found
    rwa [opens] at first
  · rename_i after opens
    rw [opens] at first
    have second := passes_trimStart after
    split at found
    · rename_i inside
      cases found
      rw [inside] at second
      exact (first.trans (.cons (by decide) after)).trans second
    · contradiction
  · contradiction

/-- Before its opening brace a declaration has neither quotes nor comments. -/
theorem passes_declarationBody? (inert : name.all Piece.isInert = true)
    (found : declarationBody? name line = some rest) : Passes line ('{' :: rest) := by
  obtain ⟨afterKeyword, keyword, found⟩ := Option.bind_eq_some_iff.mp found
  obtain ⟨afterName, named, found⟩ := Option.bind_eq_some_iff.mp found
  have tabs : ∀ c, (c == ' ' || c == '\t') = true → Piece.isInert c = true := by
    intro c either
    simp only [Bool.or_eq_true, beq_iff_eq] at either
    rcases either with rfl | rfl <;> rfl
  have words : Passes line (skipWord "declare" (skipWord "export"
      (line.dropWhile fun c => c == ' ' || c == '\t'))) :=
    ((Passes.dropWhile tabs line).trans (passes_skipWord (by decide) _)).trans
      (passes_skipWord (by decide) _)
  have kind : Passes (skipWord "declare" (skipWord "export"
      (line.dropWhile fun c => c == ' ' || c == '\t'))) afterKeyword := by
    rcases Option.or_eq_some_iff.mp keyword with opens | ⟨_, opens⟩
    · exact .word (by decide) opens
    · exact .word (by decide) opens
  exact ((words.trans kind).trans (passes_afterBlankName? inert named)).trans
    (passes_afterBrace? found)

end Readers

section Lines

variable {name text rest : Text}

/-- The first declaration of a name that a line of the text starts with: what stands before it, the
declaration up to its opening brace, and what follows. -/
structure FirstDeclared (atLineStart : Bool) (name text before declaration rest : Text) :
    Prop where
  whole : text = before ++ declaration ++ rest
  line : startsLine atLineStart before = true
  reads : declarationBody? name (declaration ++ rest) = some rest
  first : ∀ front back, text = front ++ back → front.length < before.length →
    startsLine atLineStart front = true → declarationBody? name back = none

theorem firstDeclared {atLineStart : Bool} (inert : name.all Piece.isInert = true)
    (found : findDeclaration? name atLineStart text = some rest) :
    ∃ before declaration, FirstDeclared atLineStart name text before declaration rest ∧
      declaration.all Piece.isInert = true ∧ declaration ≠ [] := by
  induction text generalizing atLineStart with
  | nil => contradiction
  | cons c text ih =>
    rcases Option.or_eq_some_iff.mp found with here | ⟨none, later⟩
    · split at here
      · rename_i starts
        obtain ⟨part, whole, calm⟩ := passes_declarationBody? inert here
        have reads : c :: text = (part ++ ['{']) ++ rest := by simpa using whole
        refine ⟨[], part ++ ['{'], ⟨reads, starts, reads ▸ here, ?_⟩, ?_, by simp⟩
        · intro front back _ shorter
          simp at shorter
        · rw [List.all_append, calm]
          rfl
      · contradiction
    · obtain ⟨before, declaration, declared, calm, filled⟩ := ih later
      refine ⟨c :: before, declaration, ⟨?_, ?_, declared.reads, ?_⟩, calm, filled⟩
      · rw [declared.whole]
        rfl
      · rw [startsLine_cons]
        exact declared.line
      · intro front back parts shorter starts
        cases front with
        | nil =>
          have begins : atLineStart = true := starts
          have same : c :: text = back := parts
          rwa [if_pos begins, same] at none
        | cons d front =>
          obtain ⟨rfl, tails⟩ := List.cons.inj parts
          rw [startsLine_cons] at starts
          exact declared.first front back tails (by simpa using shorter) starts

end Lines

section Scan

variable {before part rest : Text}

/-- The part of a text is code of it, and what follows is scanned as if it stood alone. -/
def InCode (before part rest : Text) : Prop :=
  ∃ left, textOf left = before ∧
    pieces (before ++ part ++ rest) = left ++ part.map .code ++ pieces rest

/-- The part of a text lies inside a quoted span or a block comment that begins before it. -/
def Hidden (before part rest : Text) : Prop :=
  ∃ left piece right front back, pieces (before ++ part ++ rest) = left ++ piece :: right ∧
    before = textOf left ++ front ∧ front ≠ [] ∧ piece.text = front ++ part ++ back ∧
    ((∃ span, piece = .quoted span) ∨ ∃ block, piece = .comment ('/' :: '*' :: block))

theorem not_inCode_of_hidden (filled : part ≠ []) (hidden : Hidden before part rest) :
    ¬ InCode before part rest := by
  rintro ⟨left, same, scanned⟩
  obtain ⟨outside, piece, right, front, back, whole, starts, inside, cut, _⟩ := hidden
  rw [scanned, List.append_assoc] at whole
  rcases List.append_eq_append_iff.mp whole with ⟨more, longer, _⟩ | ⟨more, longer, ends⟩
  · rw [longer, textOf_append, ← same] at starts
    simp [inside] at starts
  · cases more with
    | nil =>
      rw [longer, List.append_nil] at same
      rw [same] at starts
      simp [inside] at starts
    | cons first more =>
      obtain ⟨rfl, _⟩ := List.cons.inj ends
      rw [longer, textOf_append, textOf_cons, cut] at same
      rw [← same] at starts
      simp [filled] at starts

/-- A comment over several lines is a block. -/
theorem block_of_lines {span : Text} {next : Option Char}
    (ends : (Piece.comment span).EndsBefore next) (lines : '\n' ∈ span) :
    ∃ block, span = '/' :: '*' :: block ∧ (next ≠ none → Piece.endsBlock block = true) := by
  rcases ends.comment_cases with ⟨line, rfl, inside, _⟩ | ⟨block, rfl, closed⟩
  · have inLine : ∀ c ∈ line, c ≠ '\n' := by simpa [Piece.inLine] using inside
    simp at lines
    exact absurd rfl (inLine _ lines)
  · exact ⟨block, rfl, closed⟩

/-- A span or comment over several lines that something follows ends with a quote or a slash. -/
theorem isInert_last {piece : Piece} {next c : Char} (ends : piece.EndsBefore (some next))
    (long : ∀ c, piece ≠ .code c) (lines : '\n' ∈ piece.text)
    (last : piece.text.getLast? = some c) : Piece.isInert c = false := by
  cases piece with
  | code c => exact absurd rfl (long c)
  | quoted span =>
    have closed := ends.quoted
    cases span with
    | nil => exact absurd closed Bool.false_ne_true
    | cons quote tail =>
      rw [Piece.isClosedSpan, Bool.and_eq_true] at closed
      rw [Piece.text, List.getLast?_cons, Piece.getLast?_of_endsQuoted closed.2] at last
      cases last
      simp [Piece.isInert, closed.1]
  | comment span =>
    obtain ⟨block, rfl, closed⟩ := block_of_lines ends lines
    rw [Piece.text, List.getLast?_cons, List.getLast?_cons,
      Piece.getLast?_of_endsBlock (closed (Option.some_ne_none next))] at last
    cases last
    rfl

/-- A part without quotes and comments that starts inside a span or comment over several lines stays
inside it. -/
theorem part_stays_inside {piece : Piece} {front back : Text} {right : List Piece}
    (here : piece.EndsBefore (textOf right).head?) (long : ∀ c, piece ≠ .code c)
    (lines : '\n' ∈ piece.text) (parts : piece.text = front ++ back) (filled : back ≠ [])
    (inert : part.all Piece.isInert = true) (ends : part ++ rest = back ++ textOf right) :
    ∃ more, back = part ++ more := by
  rcases List.append_eq_append_iff.mp ends with ⟨more, longer, _⟩ | ⟨more, shorter, later⟩
  · exact ⟨more, longer⟩
  · cases more with
    | nil => exact ⟨[], by simpa using shorter.symm⟩
    | cons next more =>
      -- The part would go on behind the piece, whose last character is not inert.
      exfalso
      rw [later] at here
      obtain ⟨c, last⟩ : ∃ c, back.getLast? = some c :=
        Option.ne_none_iff_exists'.mp fun none => filled (List.getLast?_eq_none_iff.mp none)
      have ending : piece.text.getLast? = some c := by
        rw [parts, List.getLast?_append, last]
        rfl
      have calm : Piece.isInert c = true := by
        refine List.all_eq_true.mp inert c ?_
        rw [shorter]
        exact List.mem_append_left _ (List.mem_of_getLast? last)
      rw [isInert_last here long lines ending] at calm
      contradiction

/-- A part without quotes and comments that a line starts with is either code or hidden. -/
theorem inCode_or_hidden (inert : part.all Piece.isInert = true)
    (line : startsLine true before = true) :
    InCode before part rest ∨ Hidden before part rest := by
  have aligned := aligned_pieces (before ++ part ++ rest)
  have whole : textOf (pieces (before ++ part ++ rest)) = before ++ (part ++ rest) := by
    rw [textOf_pieces, List.append_assoc]
  unfold InCode Hidden
  generalize pieces (before ++ part ++ rest) = found at aligned whole
  rcases cut_pieces whole with ⟨left, right, rfl, starts, ends⟩ |
    ⟨left, piece, right, front, back, rfl, parts, begun, filled, starts, ends⟩
  · left
    refine ⟨left, starts, ?_⟩
    have scanned : pieces (textOf right) = right := pieces_textOf aligned.of_append_right
    rw [List.append_assoc, ← pieces_append_code inert, ← ends, scanned]
  · right
    have linefeed : front.getLast? = some '\n' := by
      unfold startsLine at line
      rw [starts, List.getLast?_append] at line
      cases last : front.getLast? with
      | none => exact absurd (List.getLast?_eq_none_iff.mp last) begun
      | some c =>
        rw [last] at line
        simpa using line
    have lines : '\n' ∈ piece.text := by
      rw [parts]
      exact List.mem_append_left _ (List.mem_of_getLast? linefeed)
    have long : ∀ c, piece ≠ .code c := by
      rintro c rfl
      cases front with
      | nil => exact begun rfl
      | cons d front => simp [Piece.text, filled] at parts
    have here := aligned.of_append_right.1
    obtain ⟨more, same⟩ := part_stays_inside here long lines parts filled inert ends
    refine ⟨left, piece, right, front, more, rfl, starts, begun, ?_, ?_⟩
    · rw [parts, same, List.append_assoc]
    · cases piece with
      | code c => exact absurd rfl (long c)
      | quoted span => exact .inl ⟨span, rfl⟩
      | comment span =>
        obtain ⟨block, rfl, _⟩ := block_of_lines here lines
        exact .inr ⟨block, rfl⟩

end Scan

section Blocks

variable {text dotted root : Text} {names : List Text} {block : Block}

/-- The names of the blocks that matter. -/
def blockNames : List Text := [pathsScope, schemasScope, operationsScope]

theorem root_of_mem_blockNames (listed : dotted ∈ blockNames) :
    ∃ root names, dotted.splitOn '.' = root :: names ∧ root.all Piece.isInert = true := by
  simp only [blockNames, List.mem_cons, List.not_mem_nil, or_false] at listed
  rcases listed with rfl | rfl | rfl
  · exact ⟨"paths", [], by decide, by decide⟩
  · exact ⟨"components", ["schemas"], by decide, by decide⟩
  · exact ⟨"operations", [], by decide, by decide⟩

/-- The block is reached from the inside of the bracket pair that opens at the end of a text. -/
def CutBehind (opening rest : Text) (names : List Text) (block : Block) : Prop :=
  ∃ inner after, splitClose '{' '}' 0 (pieces rest) = some (inner, after) ∧
    Block.descend ⟨opening.size, textOf inner⟩ names = .ok block

theorem cutBehind_of_locate (parts : dotted.splitOn '.' = root :: names)
    (inert : root.all Piece.isInert = true) (found : locate text dotted = .ok block) :
    ∃ before declaration rest, FirstDeclared true root text before declaration rest ∧
      declaration.all Piece.isInert = true ∧ declaration ≠ [] ∧
      CutBehind (before ++ declaration) rest names block := by
  unfold locate declared at found
  rw [parts] at found
  dsimp only at found
  cases declares : findDeclaration? root true text with
  | none =>
    rw [declares] at found
    contradiction
  | some rest =>
    obtain ⟨before, declaration, first, calm, filled⟩ := firstDeclared inert declares
    have opening : text.size - rest.size = (before ++ declaration).size := by
      rw [first.whole, size_append _ rest, Nat.add_sub_cancel]
    rw [declares] at found
    dsimp only at found
    cases closes : splitClose '{' '}' 0 (pieces rest) with
    | none =>
      rw [closes] at found
      contradiction
    | some pair =>
      obtain ⟨inner, after⟩ := pair
      rw [closes, opening] at found
      exact ⟨before, declaration, rest, first, calm, filled, inner, after, closes, found⟩

/-- A block is cut out of the first declaration of its name that starts a line. The declaration is
code, or it is hidden in a block comment or a quoted span. -/
theorem declaration_in_code_iff (listed : dotted ∈ blockNames)
    (found : locate text dotted = .ok block) :
    ∃ root names before declaration rest, dotted.splitOn '.' = root :: names ∧
      FirstDeclared true root text before declaration rest ∧
      CutBehind (before ++ declaration) rest names block ∧
      (InCode before declaration rest ↔ ¬ Hidden before declaration rest) := by
  obtain ⟨root, names, parts, inert⟩ := root_of_mem_blockNames listed
  obtain ⟨before, declaration, rest, first, calm, filled, cut⟩ :=
    cutBehind_of_locate parts inert found
  refine ⟨root, names, before, declaration, rest, parts, first, cut, ?_⟩
  constructor
  · intro code hidden
    exact not_inCode_of_hidden filled hidden code
  · intro shown
    rcases inCode_or_hidden calm first.line with code | hidden
    · exact code
    · exact absurd hidden shown

/-- A declaration behind one that a line comment keeps out. -/
def linedText : Text := "// interface paths \x7b a: 1 \x7d\ninterface paths \x7b b: 2 \x7d\n"

/-- A declaration behind one that a block comment does not keep out. -/
def commentedText : Text :=
  "/*\ninterface paths \x7b a: 1 \x7d\n*/\ninterface paths \x7b b: 2 \x7d\n"

theorem lined_declaration_in_code :
    ∃ block before declaration rest, locate linedText "paths" = .ok block ∧
      block = ⟨45, " b: 2 "⟩ ∧ FirstDeclared true "paths" linedText before declaration rest ∧
      CutBehind (before ++ declaration) rest [] block ∧
      (InCode before declaration rest ↔ ¬ Hidden before declaration rest) := by
  have read : (locate linedText "paths").toOption = some ⟨45, " b: 2 "⟩ := by decide +kernel
  cases found : locate linedText "paths" with
  | error error =>
    rw [found] at read
    contradiction
  | ok block =>
    rw [found] at read
    obtain ⟨root, names, before, declaration, rest, parts, first, cut, shown⟩ :=
      declaration_in_code_iff (by decide) found
    have whole : ("paths" : Text).splitOn '.' = [("paths" : Text)] := by decide
    rw [whole] at parts
    obtain ⟨rfl, rfl⟩ := List.cons.inj parts
    exact ⟨block, before, declaration, rest, rfl, Option.some.inj read, first, cut, shown⟩

/-- The block that is found in the text lies in its comment; without the comment it is another. -/
theorem commented_declaration_found :
    (locate commentedText "paths").toOption = some ⟨20, " a: 1 "⟩ ∧
    commentedText =
      "/*\n" ++ "interface paths \x7b" ++ " a: 1 \x7d\n*/\ninterface paths \x7b b: 2 \x7d\n" ∧
    Hidden "/*\n" "interface paths \x7b" " a: 1 \x7d\n*/\ninterface paths \x7b b: 2 \x7d\n" ∧
    (locate (stripComments commentedText) "paths").toOption = some ⟨19, " b: 2 "⟩ := by
  refine ⟨by decide +kernel, by decide, ?_, by decide +kernel⟩
  refine ⟨[], .comment "/*\ninterface paths \x7b a: 1 \x7d\n*/",
    ("\ninterface paths \x7b b: 2 \x7d\n" : Text).map .code, "/*\n", " a: 1 \x7d\n*/", ?_, ?_, ?_,
    ?_, .inr ⟨"\ninterface paths \x7b a: 1 \x7d\n*/", ?_⟩⟩
  · decide +kernel
  · decide
  · decide
  · decide
  · decide

end Blocks

end TypedClient
