import TypedClient.Proofs.Piece.Comments
import TypedClient.TypeLiteral.Member

/-!
Where comments stand in the body of a type literal. A line end is told by the bare text behind it, and
a comment there is taken for code. Main statement: where comments come only inside brackets, or behind
a separator, a text opens with a member with its comments as it does without them.
-/

namespace TypedClient

open Text

/-- Whether comments stand only inside brackets and where a member begins. Of the pieces before, an
open pair is known, and whether only blanks and comments stand behind the last separator. -/
def commentsLead (pair : Option OpenPair) (ready : Bool) : List Piece → Bool
  | [] => true
  | .code c :: rest =>
    match pair with
    | some outer => commentsLead (outer.next c) false rest
    | none =>
      commentsLead (OpenPair.start? c) (c == ';' || c == ',' || ready && isAsciiBlank c) rest
  | .quoted _ :: rest => commentsLead pair false rest
  | .comment _ :: rest => (pair.isSome || ready) && commentsLead pair ready rest

/-- Whether a character opens a bracket pair or separates members. -/
def isMark (c : Char) : Bool := (closing? c).isSome || c == ';' || c == ','

theorem isMark_of_isBlank {c : Char} (blank : isBlank c = true) : isMark c = false := by
  cases mark : isMark c with
  | false => rfl
  | true =>
    simp only [isMark, closing?, Bool.or_eq_true, beq_iff_eq] at mark
    split at mark
    · exact absurd blank (by decide)
    · exact absurd blank (by decide)
    · exact absurd blank (by decide)
    · simp only [Option.isSome_none, Bool.false_eq_true, false_or] at mark
      rcases mark with rfl | rfl <;> exact absurd blank (by decide)

theorem isMark_of_isKeyChar {c : Char} (key : isKeyChar c = true) : isMark c = false := by
  cases mark : isMark c with
  | false => rfl
  | true =>
    simp only [isMark, closing?, Bool.or_eq_true, beq_iff_eq] at mark
    split at mark
    · exact absurd key (by decide)
    · exact absurd key (by decide)
    · exact absurd key (by decide)
    · simp only [Option.isSome_none, Bool.false_eq_true, false_or] at mark
      rcases mark with rfl | rfl <;> exact absurd key (by decide)

theorem isBlank_of_isKeyChar {c : Char} (word : isKeyChar c = true) : isBlank c = false := by
  have each : (!isBlank c) = true := by
    simp only [isKeyChar, Bool.or_eq_true, beq_iff_eq] at word
    rcases word with (word | rfl) | rfl
    · exact alphanum_imp (q := fun c => !isBlank c) (by decide) word
    · decide
    · decide
  simpa using each

section Lead

variable {pair : Option OpenPair} {ready : Bool} {found front back after : List Piece}

theorem commentsLead_ready (lead : commentsLead pair ready found = true) :
    commentsLead pair true found = true := by
  induction found generalizing pair ready with
  | nil => rfl
  | cons piece rest ih =>
    cases piece with
    | code c =>
      cases pair with
      | some outer => exact lead
      | none =>
        unfold commentsLead at lead ⊢
        cases ready with
        | true => exact lead
        | false =>
          by_cases blank : isAsciiBlank c = true
          · have step := ih lead
            simp only [blank, Bool.and_true, Bool.or_true]
            exact step
          · simpa [blank] using lead
    | quoted span => exact lead
    | comment span =>
      rw [commentsLead, Bool.and_eq_true] at lead ⊢
      exact ⟨Bool.or_true _, ih lead.2⟩

theorem commentsLead_of_append (lead : commentsLead pair ready (front ++ back) = true) :
    commentsLead pair ready front = true := by
  induction front generalizing pair ready with
  | nil => rfl
  | cons piece rest ih =>
    cases piece with
    | code c =>
      cases pair with
      | some outer => exact ih lead
      | none => exact ih lead
    | quoted span => exact ih lead
    | comment span =>
      rw [List.cons_append, commentsLead, Bool.and_eq_true] at lead
      rw [commentsLead, Bool.and_eq_true]
      exact ⟨lead.1, ih lead.2⟩

/-- Behind a bracket pair nothing is ready for a comment. -/
theorem commentsLead_of_splitClose {opening closing : Char} {depth : Nat} {inner : List Piece}
    (lead : commentsLead (some ⟨opening, closing, depth⟩) false found = true)
    (split : splitClose opening closing depth found = some (inner, after)) :
    commentsLead none false after = true := by
  induction found generalizing depth inner with
  | nil => contradiction
  | cons piece rest ih =>
    cases piece with
    | code c =>
      have step : commentsLead (OpenPair.next ⟨opening, closing, depth⟩ c) false rest = true := lead
      rw [splitClose_code] at split
      unfold OpenPair.next at step
      by_cases opens : c = opening
      · rw [if_neg fun ends => ends.2.1 opens, if_pos opens] at split
        obtain ⟨⟨more, _⟩, later, same⟩ := Option.map_eq_some_iff.mp split
        cases same
        rw [if_pos opens] at step
        exact ih step later
      · rw [if_neg opens] at step
        by_cases closes : c = closing
        · rw [if_pos closes] at step
          cases depth with
          | zero =>
            rw [if_pos ⟨closes, opens, rfl⟩] at split
            cases split
            exact step
          | succ depth =>
            rw [if_neg fun ends => Nat.succ_ne_zero depth ends.2.2, if_neg opens, if_pos closes]
              at split
            obtain ⟨⟨more, _⟩, later, same⟩ := Option.map_eq_some_iff.mp split
            cases same
            exact ih step later
        · rw [if_neg fun ends => closes ends.1, if_neg opens, if_neg closes] at split
          obtain ⟨⟨more, _⟩, later, same⟩ := Option.map_eq_some_iff.mp split
          cases same
          rw [if_neg closes] at step
          exact ih step later
    | quoted span =>
      rw [splitClose_quoted] at split
      obtain ⟨⟨more, _⟩, later, same⟩ := Option.map_eq_some_iff.mp split
      cases same
      exact ih lead later
    | comment span =>
      rw [splitClose_comment] at split
      obtain ⟨⟨more, _⟩, later, same⟩ := Option.map_eq_some_iff.mp split
      cases same
      rw [commentsLead, Bool.and_eq_true] at lead
      exact ih lead.2 later

theorem commentsLead_dropSeparators (lead : commentsLead none true found = true) :
    commentsLead none true (found.dropWhile Piece.isSeparator) = true := by
  induction found with
  | nil => rfl
  | cons piece rest ih =>
    rw [List.dropWhile_cons]
    split
    · rename_i separator
      refine ih ?_
      cases piece with
      | quoted span => contradiction
      | comment span =>
        rw [commentsLead, Bool.and_eq_true] at lead
        exact lead.2
      | code c =>
        have outside : OpenPair.start? c = none := by
          simp only [Piece.isSeparator, Bool.or_eq_true, beq_iff_eq] at separator
          unfold OpenPair.start?
          rcases separator with (blank | rfl) | rfl
          · have plain := isMark_of_isBlank (isBlank_of_isAsciiBlank blank)
            simp only [isMark, Bool.or_eq_false_iff] at plain
            rw [Option.isSome_eq_false_iff, Option.isNone_iff_eq_none] at plain
            rw [plain.1.1]
            rfl
          · rfl
          · rfl
        have step : commentsLead (OpenPair.start? c)
            (c == ';' || c == ',' || true && isAsciiBlank c) rest = true := lead
        rw [outside] at step
        exact commentsLead_ready step
    · exact lead

end Lead

/-- Pieces in which a comment comes only in brackets or behind the next separator. -/
structure Calm (found : List Piece) : Prop where
  aligned : Aligned found
  lead : commentsLead none false found = true

namespace Calm

variable {found front back after : List Piece}

theorem nil : Calm [] := ⟨trivial, rfl⟩

theorem of_code {c : Char} {rest : List Piece} (calm : Calm (.code c :: rest))
    (plain : isMark c = false) : Calm rest := by
  simp only [isMark, Bool.or_eq_false_iff, Option.isSome_eq_false_iff, Option.isNone_iff_eq_none]
    at plain
  have outside : OpenPair.start? c = none := by rw [OpenPair.start?, plain.1.1]; rfl
  have step : commentsLead (OpenPair.start? c)
      (c == ';' || c == ',' || false && isAsciiBlank c) rest = true := calm.lead
  rw [outside, plain.1.2, plain.2, Bool.false_and] at step
  exact ⟨calm.aligned.2, step⟩

theorem of_quoted {span : Text} {rest : List Piece} (calm : Calm (.quoted span :: rest)) :
    Calm rest := ⟨calm.aligned.2, calm.lead⟩

theorem not_comment {span : Text} {rest : List Piece} : ¬ Calm (.comment span :: rest) := by
  intro calm
  have lead := calm.lead
  simp [commentsLead] at lead

theorem of_append (calm : Calm (front ++ back)) : Calm front :=
  ⟨calm.aligned.of_append_left, commentsLead_of_append calm.lead⟩

/-- What stands behind an index or a literal. -/
theorem of_splitClose {opening closing : Char} {inner : List Piece}
    (calm : Calm (.code opening :: back)) (opens : closing? opening = some closing)
    (split : splitClose opening closing 0 back = some (inner, after)) : Calm after := by
  have whole := splitClose_append split
  have aligned : Aligned (inner ++ .code closing :: after) := whole ▸ calm.aligned.2
  have step : commentsLead (OpenPair.start? opening)
      (opening == ';' || opening == ',' || false && isAsciiBlank opening) back = true := calm.lead
  have started : OpenPair.start? opening = some ⟨opening, closing, 0⟩ := by
    rw [OpenPair.start?, opens]
    rfl
  have other : (opening == ';' || opening == ',' || false && isAsciiBlank opening) = false := by
    unfold closing? at opens
    split at opens
    · rfl
    · rfl
    · rfl
    · contradiction
  rw [started, other] at step
  exact ⟨aligned.of_append_right.2, commentsLead_of_splitClose step split⟩

/-- Pieces of code that are no marks are passed over with and without comments. -/
theorem dropWhile {p : Piece → Bool} (calm : Calm found)
    (plain : ∀ c, p (.code c) = true → isMark c = false)
    (spans : ∀ span, p (.quoted span) = false) :
    Calm (found.dropWhile p) ∧
      (withoutComments found).dropWhile p = withoutComments (found.dropWhile p) ∧
      (withoutComments found).takeWhile p = found.takeWhile p := by
  induction found with
  | nil => exact ⟨calm, rfl, rfl⟩
  | cons piece rest ih =>
    cases piece with
    | comment span => exact absurd calm not_comment
    | quoted span =>
      simp [spans, calm]
    | code c =>
      cases taken : p (.code c) with
      | false => simp [taken, calm]
      | true =>
        obtain ⟨later, dropped, kept⟩ := ih (calm.of_code (plain c taken))
        simp [taken, later, dropped, kept]

theorem skipTrivia (calm : Calm found) : Calm (skipTrivia found) := by
  induction found with
  | nil => exact calm
  | cons piece rest ih =>
    cases piece with
    | comment span => exact absurd calm not_comment
    | quoted span => exact calm
    | code c =>
      unfold TypedClient.skipTrivia
      rw [List.dropWhile_cons]
      split
      · rename_i blank
        exact ih (calm.of_code (isMark_of_isBlank (isBlank_of_isAsciiBlank blank)))
      · exact calm

/-- The characters of calm pieces are, from the first on, those without the comments. -/
theorem head?_text (calm : Calm found) :
    (textOf (withoutComments found)).head? = (textOf found).head? := by
  cases found with
  | nil => rfl
  | cons piece rest =>
    cases piece with
    | comment span => exact absurd calm not_comment
    | quoted span =>
      obtain ⟨c, tail, starts, _⟩ := calm.aligned.1
      simp [starts]
    | code c => rfl

end Calm

section Opens

/-- Texts that are alike until the first one has a comment, which no bracket or separator comes
before. -/
def Veiled (left right : Text) : Prop :=
  ∃ front found, Calm found ∧ left = front ++ textOf found ∧
    right = front ++ textOf (withoutComments found)

theorem Calm.veiled {found : List Piece} (calm : Calm found) :
    Veiled (textOf found) (textOf (withoutComments found)) := ⟨[], found, calm, rfl, rfl⟩

namespace Veiled

variable {left right : Text}

theorem head? (veiled : Veiled left right) : left.head? = right.head? := by
  obtain ⟨front, found, calm, rfl, rfl⟩ := veiled
  cases front with
  | nil => exact calm.head?_text.symm
  | cons c front => rfl

theorem tail {c d : Char} (veiled : Veiled (c :: left) (d :: right)) (plain : isMark c = false) :
    c = d ∧ Veiled left right := by
  have same : c = d := Option.some.inj veiled.head?
  refine ⟨same, ?_⟩
  subst same
  obtain ⟨front, found, calm, starts, bare⟩ := veiled
  cases front with
  | cons e front =>
    obtain ⟨rfl, parts⟩ := List.cons.inj starts
    exact ⟨front, found, calm, parts, (List.cons.inj bare).2⟩
  | nil =>
    cases found with
    | nil => contradiction
    | cons piece rest =>
      cases piece with
      | comment span => exact absurd calm Calm.not_comment
      | code e =>
        obtain ⟨rfl, parts⟩ := List.cons.inj starts
        exact ⟨[], rest, calm.of_code plain, parts, (List.cons.inj bare).2⟩
      | quoted span =>
        cases span with
        | nil =>
          obtain ⟨e, more, empty, _⟩ := calm.aligned.1
          contradiction
        | cons e span =>
          obtain ⟨rfl, parts⟩ := List.cons.inj starts
          exact ⟨span, rest, calm.of_quoted, parts, (List.cons.inj bare).2⟩

theorem dropWhile {p : Char → Bool} (plain : ∀ c, p c = true → isMark c = false)
    (veiled : Veiled left right) : Veiled (left.dropWhile p) (right.dropWhile p) := by
  induction left generalizing right with
  | nil =>
    have none := veiled.head?
    cases right with
    | nil => exact veiled
    | cons d right => contradiction
  | cons c left ih =>
    have head := veiled.head?
    cases right with
    | nil => contradiction
    | cons d right =>
      cases taken : p c with
      | false =>
        have same : c = d := Option.some.inj head
        rw [List.dropWhile_cons, List.dropWhile_cons, ← same, taken]
        exact same ▸ veiled
      | true =>
        obtain ⟨rfl, later⟩ := veiled.tail (plain c taken)
        rw [List.dropWhile_cons, List.dropWhile_cons, if_pos taken, if_pos taken]
        exact ih later

theorem trimStart (veiled : Veiled left right) :
    Veiled (trimStart left) (Text.trimStart right) :=
  veiled.dropWhile fun _ => isMark_of_isBlank

end Veiled

/-- Whether a colon comes next, perhaps behind the mark of an optional member. -/
def colonNext (text : Text) : Bool :=
  match trimStart text with
  | ':' :: _ => true
  | '?' :: rest => (trimStart rest).head? = some ':'
  | _ => false

theorem Veiled.colonNext {left right : Text} (veiled : Veiled left right) :
    colonNext left = colonNext right := by
  have start := veiled.trimStart
  unfold TypedClient.colonNext
  have head := start.head?
  generalize Text.trimStart left = left at start head
  generalize Text.trimStart right = right at start head
  cases left with
  | nil =>
    cases right with
    | nil => rfl
    | cons d right => contradiction
  | cons c left =>
    cases right with
    | nil => contradiction
    | cons d right =>
      obtain rfl : c = d := Option.some.inj head
      by_cases mark : c = '?'
      · subst mark
        obtain ⟨_, later⟩ := start.tail rfl
        change decide ((Text.trimStart left).head? = some ':') =
          decide ((Text.trimStart right).head? = some ':')
        rw [later.trimStart.head?]
      · by_cases colon : c = ':'
        · subst colon
          rfl
        · simp [mark, colon]

/-- What follows the key of a member that opens a text. -/
def keyEnd? : Text → Option Text
  | '"' :: rest => (cut? '"' rest).map (·.2)
  | '\'' :: rest => (cut? '\'' rest).map (·.2)
  | c :: rest => if isKeyChar c then some (rest.dropWhile isKeyChar) else none
  | [] => none

/-- The test of what follows a key, put together as `opensWithKey` has it. -/
theorem any_colonNext (after : Option Text) :
    (match after.map trimStart with
      | some (':' :: _) => true
      | some ('?' :: rest) => (trimStart rest).head? = some ':'
      | _ => false) = after.any colonNext := by
  cases after with
  | none => rfl
  | some rest =>
    rw [Option.map_some, Option.any_some, colonNext]
    generalize trimStart rest = start
    cases start with
    | nil => rfl
    | cons c start =>
      by_cases colon : c = ':'
      · subst colon
        rfl
      · by_cases mark : c = '?'
        · subst mark
          rfl
        · simp [colon, mark]

theorem opensWithKey_eq (text : Text) : opensWithKey text = (keyEnd? text).any colonNext :=
  any_colonNext (keyEnd? text)

section Calm

variable {found : List Piece}

theorem cut?_of_mem {quote : Char} {tail : Text} (inside : quote ∈ tail) :
    ∃ before after, ∀ rest, cut? quote (tail ++ rest) = some (before, after ++ rest) := by
  induction tail with
  | nil => contradiction
  | cons c tail ih =>
    by_cases here : c = quote
    · exact ⟨[], tail, fun rest => by rw [List.cons_append, cut?, if_pos here]⟩
    · obtain ⟨before, after, cut⟩ := ih ((List.mem_cons.mp inside).resolve_left (Ne.symm here))
      exact ⟨c :: before, after, fun rest => by
        rw [List.cons_append, cut?, if_neg here, cut rest]; rfl⟩

theorem keyEnd?_of_code {c : Char} (plain : Piece.isQuote c = false) (rest : Text) :
    keyEnd? (c :: rest) = if isKeyChar c then some (rest.dropWhile isKeyChar) else none := by
  unfold keyEnd?
  split
  · rename_i same
    cases same
    contradiction
  · rename_i same
    cases same
    contradiction
  · rename_i same
    cases same
    rfl
  · contradiction

theorem keyEnd?_of_quote {quote : Char} (mark : Piece.isQuote quote = true) (rest : Text) :
    keyEnd? (quote :: rest) =
      if quote = '\x60' then none else (cut? quote rest).map (·.2) := by
  simp only [Piece.isQuote, Bool.or_eq_true, beq_iff_eq] at mark
  rcases mark with (rfl | rfl) | rfl <;> rfl

/-- The key ends at the same place with and without the comments behind it. -/
theorem Calm.opensWithKey (calm : Calm found) :
    opensWithKey (textOf found) = opensWithKey (textOf (withoutComments found)) := by
  rw [opensWithKey_eq, opensWithKey_eq]
  cases found with
  | nil => rfl
  | cons piece rest =>
    cases piece with
    | comment span => exact absurd calm not_comment
    | code c =>
      have plain := calm.aligned.1.code.1
      rw [withoutComments_code, textOf_cons, textOf_cons, Piece.text, List.singleton_append,
        List.singleton_append, keyEnd?_of_code plain, keyEnd?_of_code plain]
      split
      · rename_i key
        have later := (calm.of_code (isMark_of_isKeyChar key)).veiled
        exact (later.dropWhile fun _ => isMark_of_isKeyChar).colonNext
      · rfl
    | quoted span =>
      obtain ⟨quote, tail, rfl, mark⟩ := calm.aligned.1.starts_quoted
      have whole (more : List Piece) : textOf (.quoted (quote :: tail) :: more) =
          quote :: (tail ++ textOf more) := rfl
      by_cases last : rest = []
      · rw [last]
        rfl
      · have follows := calm.aligned.2.textOf_ne_nil last
        have aligned : Aligned ([] ++ .quoted (quote :: tail) :: rest) := calm.aligned
        have closed := aligned.isClosedSpan_of_follows follows
        rw [Piece.isClosedSpan, Bool.and_eq_true] at closed
        obtain ⟨before, after, cut⟩ := cut?_of_mem
          (List.mem_of_getLast? (Piece.getLast?_of_endsQuoted closed.2))
        have behind : Veiled (after ++ textOf rest) (after ++ textOf (withoutComments rest)) :=
          ⟨after, rest, calm.of_quoted, rfl, rfl⟩
        rw [withoutComments_quoted, whole, whole, keyEnd?_of_quote mark, keyEnd?_of_quote mark,
          cut, cut]
        split
        · rfl
        · exact behind.colonNext

/-- A word opens the pieces with comments and those without, or neither. -/
theorem Calm.isPrefixOf? (calm : Calm found) {word : Text}
    (keys : word.all isKeyChar = true) :
    (word.isPrefixOf? (textOf found) = none ∧
        word.isPrefixOf? (textOf (withoutComments found)) = none) ∨
      ∃ rest, Calm rest ∧ word.isPrefixOf? (textOf found) = some (textOf rest) ∧
        word.isPrefixOf? (textOf (withoutComments found)) =
          some (textOf (withoutComments rest)) := by
  have step : ∀ (c d : Char) (word text : Text), (c :: word).isPrefixOf? (d :: text) =
      if c == d then word.isPrefixOf? text else none := fun _ _ _ _ => rfl
  induction word generalizing found with
  | nil => exact .inr ⟨found, calm, rfl, rfl⟩
  | cons c word ih =>
    rw [List.all_cons, Bool.and_eq_true] at keys
    cases found with
    | nil => exact .inl ⟨rfl, rfl⟩
    | cons piece rest =>
      cases piece with
      | comment span => exact absurd calm not_comment
      | code d =>
        rw [withoutComments_code, textOf_cons, textOf_cons, Piece.text, List.singleton_append,
          List.singleton_append, step, step]
        by_cases same : c = d
        · rw [if_pos (by simp [same]), if_pos (by simp [same])]
          exact ih (calm.of_code (isMark_of_isKeyChar (same ▸ keys.1))) keys.2
        · left
          rw [if_neg (by simp [same]), if_neg (by simp [same])]
          exact ⟨rfl, rfl⟩
      | quoted span =>
        obtain ⟨quote, tail, rfl, mark⟩ := calm.aligned.1.starts_quoted
        have other : c ≠ quote := by
          rintro rfl
          simp only [Piece.isQuote, Bool.or_eq_true, beq_iff_eq] at mark
          rcases mark with (rfl | rfl) | rfl <;> exact absurd keys.1 (by decide)
        left
        rw [withoutComments_quoted, textOf_cons, textOf_cons, Piece.text, List.cons_append,
          List.cons_append, step, step, if_neg (by simp [other]), if_neg (by simp [other])]
        exact ⟨rfl, rfl⟩

theorem Calm.trimStart (calm : Calm found) :
    ∃ start, Calm start ∧ trimStart (textOf found) = textOf start ∧
      Text.trimStart (textOf (withoutComments found)) = textOf (withoutComments start) := by
  induction found with
  | nil => exact ⟨[], nil, rfl, rfl⟩
  | cons piece rest ih =>
    cases piece with
    | comment span => exact absurd calm not_comment
    | code c =>
      cases blank : isBlank c with
      | true =>
        obtain ⟨start, solid, trimmed, bare⟩ := ih (calm.of_code (isMark_of_isBlank blank))
        refine ⟨start, solid, ?_, ?_⟩
        · rw [← trimmed]
          exact List.dropWhile_cons_of_pos blank
        · rw [← bare]
          exact List.dropWhile_cons_of_pos blank
      | false =>
        refine ⟨.code c :: rest, calm, ?_, ?_⟩
        · exact List.dropWhile_cons_of_neg (by simp [blank])
        · exact List.dropWhile_cons_of_neg (by simp [blank])
    | quoted span =>
      obtain ⟨quote, tail, rfl, mark⟩ := calm.aligned.1.starts_quoted
      have solid : ¬ isBlank quote = true := by
        intro blank
        rw [(plain_of_isBlank blank).1] at mark
        contradiction
      exact ⟨.quoted (quote :: tail) :: rest, calm, List.dropWhile_cons_of_neg solid,
        List.dropWhile_cons_of_neg solid⟩

theorem Calm.opensWithMember (calm : Calm found) :
    opensWithMember (textOf found) = opensWithMember (textOf (withoutComments found)) := by
  obtain ⟨start, solid, trimmed, bare⟩ := calm.trimStart
  unfold TypedClient.opensWithMember
  dsimp only
  rw [trimmed, bare, solid.opensWithKey]
  rcases solid.isPrefixOf? (show "readonly".toList.all isKeyChar = true from by decide) with
    ⟨none, bareNone⟩ | ⟨rest, behind, some, bareSome⟩
  · rw [none, bareNone]
  · rw [some, bareSome]
    cases rest with
    | nil => rfl
    | cons piece rest =>
      cases piece with
      | comment span => exact absurd behind not_comment
      | code c =>
        rw [withoutComments_code, textOf_cons, textOf_cons, Piece.text, List.singleton_append,
          List.singleton_append]
        dsimp only
        cases blank : isBlank c with
        | false => rfl
        | true =>
          obtain ⟨key, solid, trimmed, bare⟩ :=
            (behind.of_code (isMark_of_isBlank blank)).trimStart
          rw [trimmed, bare, solid.opensWithKey]
      | quoted span =>
        obtain ⟨quote, tail, rfl, mark⟩ := behind.aligned.1.starts_quoted
        have solid : isBlank quote = false := by
          cases blank : isBlank quote with
          | false => rfl
          | true =>
            rw [(plain_of_isBlank blank).1] at mark
            contradiction
        rw [withoutComments_quoted, textOf_cons, textOf_cons, Piece.text, List.cons_append,
          List.cons_append]
        dsimp only
        rw [solid, Bool.false_and, Bool.false_and]

end Calm

end Opens

end TypedClient
