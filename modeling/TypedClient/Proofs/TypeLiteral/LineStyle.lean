import TypedClient.Proofs.TypeLiteral.Cut

/-!
Members written one on each line. Main statement: without separators a line is read as part of the
value before it exactly if its key is an index signature; with a semicolon behind each line every
member is read as it is written.
-/

namespace TypedClient

open Text

namespace WrittenKey

def isIndex : WrittenKey → Bool
  | index _ => true
  | _ => false

variable {key : WrittenKey}

theorem exists_of_isIndex (index : key.isIndex = true) : ∃ inside, key = .index inside := by
  cases key with
  | index inside => exact ⟨inside, rfl⟩
  | word name => contradiction
  | quoted mark inside => contradiction

theorem exists_cons_text (canonical : key.Canonical) :
    ∃ c rest, key.text = c :: rest ∧ isBlank c = false ∧ c ≠ ':' ∧ c ≠ '?' := by
  cases key with
  | word name =>
    obtain ⟨filled, word⟩ := canonical
    obtain ⟨c, rest, rfl⟩ := List.exists_cons_of_ne_nil filled
    rw [List.all_cons, Bool.and_eq_true] at word
    refine ⟨c, rest, rfl, isBlank_of_isKeyChar word.1, ?_, ?_⟩
    · rintro rfl
      exact absurd word.1 (by decide)
    · rintro rfl
      exact absurd word.1 (by decide)
  | quoted mark inside =>
    refine ⟨mark, inside ++ [mark], rfl, ?_⟩
    rcases canonical.1 with rfl | rfl <;> decide
  | index inside => exact ⟨'[', inside ++ [']'], rfl, by decide⟩

theorem trimStart_append (canonical : key.Canonical) {blanks : Text}
    (blank : blanks.all isBlank = true) (after : Text) :
    trimStart (blanks ++ (key.text ++ after)) = key.text ++ after := by
  obtain ⟨c, rest, starts, solid, _⟩ := exists_cons_text canonical
  rw [starts]
  exact dropWhile_append_of_stop blanks blank (by simp [solid])

/-- A key and its colon are recognised in the text behind a line end unless the key is an index
signature. -/
theorem opensWithKey_text (canonical : key.Canonical) (optional : Bool) (after : Text) :
    opensWithKey (key.text ++ (WrittenMember.markText optional ++ ':' :: after)) =
      !key.isIndex := by
  rw [opensWithKey_eq]
  have colon : colonNext (WrittenMember.markText optional ++ ':' :: after) = true := by
    cases optional <;> rfl
  cases key with
  | index inside => rfl
  | word name =>
    obtain ⟨filled, word⟩ := canonical
    obtain ⟨c, rest, rfl⟩ := List.exists_cons_of_ne_nil filled
    have stops : (WrittenMember.markText optional ++ ':' :: after).head?.all
        (fun c => !isKeyChar c) = true := by
      cases optional <;> rfl
    rw [List.all_cons, Bool.and_eq_true] at word
    have plain := (plain_of_isKeyChar word.1).1
    rw [Piece.isInert, Bool.and_eq_true, Bool.not_eq_true'] at plain
    rw [text, List.cons_append, keyEnd?_of_code plain.1, if_pos word.1,
      dropWhile_append_of_stop rest word.2 stops, Option.any_some, colon]
    rfl
  | quoted mark inside =>
    obtain ⟨marks, noMark, _⟩ := canonical
    have isQuote : Piece.isQuote mark = true := by rcases marks with rfl | rfl <;> rfl
    have template : mark ≠ '\x60' := by rcases marks with rfl | rfl <;> decide
    rw [text, List.append_assoc, List.cons_append, List.singleton_append,
      keyEnd?_of_quote isQuote, if_neg template, cut?_append noMark, Option.map_some,
      Option.any_some, colon]
    rfl

end WrittenKey

/-- A reader of values that stands outside all brackets goes over these pieces. -/
def GoesOver (before : Text) (found after : List Piece) : Prop :=
  splitValue 0 none before (found ++ after) =
    (found ++ (splitValue 0 none ((textOf found).reverse ++ before) after).1,
      (splitValue 0 none ((textOf found).reverse ++ before) after).2)

/-- Whether a character neither opens a bracket nor may end a value. -/
def isFlat (c : Char) : Bool :=
  closing? c == none && c != '<' && c != '>' && !separates c

namespace GoesOver

variable {before : Text} {found more after : List Piece} {run inside : Text}

theorem nil (before : Text) (after : List Piece) : GoesOver before [] after := rfl

theorem append (front : GoesOver before found (more ++ after))
    (back : GoesOver ((textOf found).reverse ++ before) more after) :
    GoesOver before (found ++ more) after := by
  unfold GoesOver at front back ⊢
  rw [back] at front
  rw [List.append_assoc, front, textOf_append, List.reverse_append, List.append_assoc,
    List.append_assoc]

/-- Nothing opens or ends at a character. -/
theorem code {c : Char} (goesOn : endsValue 0 before c after = false) (noPair : closing? c = none)
    (noAngle : nextAngles 0 before c = 0) : GoesOver before [.code c] after := by
  have start : OpenPair.start? c = none := by
    rw [OpenPair.start?, noPair]
    rfl
  unfold GoesOver
  rw [List.singleton_append, splitValue, goesOn, start, noAngle]
  rfl

theorem comment (span : Text) : GoesOver before [.comment span] after := by
  unfold GoesOver
  rw [List.singleton_append, splitValue, textOf_cons, textOf_nil, List.append_nil]
  · rfl
  · intro c same
    contradiction

theorem flat (plain : run.all isFlat = true) : GoesOver before (run.map .code) after := by
  induction run generalizing before with
  | nil => exact nil before after
  | cons c rest ih =>
    rw [List.all_cons, Bool.and_eq_true] at plain
    obtain ⟨here, later⟩ := plain
    simp only [isFlat, separates, Bool.and_eq_true, Bool.not_eq_true', Bool.or_eq_false_iff,
      beq_iff_eq, bne_iff_ne] at here
    obtain ⟨⟨⟨noPair, notOpening⟩, notClosing⟩, ⟨noMark, noComma⟩, noBreak⟩ := here
    have goesOn : endsValue 0 before c (rest.map .code ++ after) = false := by
      simp [endsValue, noMark, noComma, noBreak]
    have noAngle : nextAngles 0 before c = 0 := by simp [nextAngles, notOpening, notClosing]
    exact (code goesOn noPair noAngle).append (ih later)

/-- Blanks and comments, line ends among them, in front of something that is no member. -/
theorem trivia (blank : found.all Piece.isTrivia = true)
    (solid : after.head?.all (fun piece => !piece.isTrivia) = true)
    (noMember : opensWithMember (textOf after) = false) : GoesOver before found after := by
  induction found generalizing before with
  | nil => exact nil before after
  | cons piece rest ih =>
    rw [List.all_cons, Bool.and_eq_true] at blank
    obtain ⟨here, later⟩ := blank
    suffices first : GoesOver before [piece] (rest ++ after) from first.append (ih later)
    cases piece with
    | quoted span => contradiction
    | comment span => exact comment span
    | code c =>
      have plain : closing? c = none ∧ c ≠ '<' ∧ c ≠ '>' ∧ c ≠ ';' ∧ c ≠ ',' := by
        simp only [Piece.isTrivia, isAsciiBlank, Bool.or_eq_true, beq_iff_eq] at here
        rcases here with (((rfl | rfl) | rfl) | rfl) | rfl <;> decide
      obtain ⟨noPair, notOpening, notClosing, noMark, noComma⟩ := plain
      have skipped : skipTrivia (rest ++ after) = after :=
        dropWhile_append_of_stop rest later solid
      have lineGoesOn : endsLine before (rest ++ after) = false := by
        unfold endsLine
        rw [skipped, noMember]
        split
        · rfl
        · exact Bool.and_false _
      have goesOn : endsValue 0 before c (rest ++ after) = false := by
        simp [endsValue, noMark, noComma, lineGoesOn]
      exact code goesOn noPair (by simp [nextAngles, notOpening, notClosing])

theorem of_returns (returns : Nesting.outer.returns none found = true)
    (plain : before.head? ≠ some '=') : GoesOver before found after := by
  have outside : Nesting.Tracked Nesting.outer.closers none := rfl
  have agrees : none = some '=' ↔ before.head? = some '=' := iff_of_false nofun plain
  exact Nesting.splitValue_append_of_returns returns outside agrees after

/-- The brackets of an index signature, whatever other brackets stand in them. -/
theorem index (plain : inside.all WrittenKey.isIndexChar = true) :
    GoesOver before (('[' :: inside ++ [']']).map .code) after := by
  have within (before : Text) :
      splitValue 0 (some ⟨'[', ']', 0⟩) before (inside.map .code ++ .code ']' :: after) =
        (inside.map .code ++ .code ']' ::
            (splitValue 0 none (']' :: (inside.reverse ++ before)) after).1,
          (splitValue 0 none (']' :: (inside.reverse ++ before)) after).2) := by
    induction inside generalizing before with
    | nil => rfl
    | cons c rest ih =>
      rw [List.all_cons, Bool.and_eq_true] at plain
      obtain ⟨here, later⟩ := plain
      simp only [WrittenKey.isIndexChar, Bool.and_eq_true, bne_iff_ne] at here
      have next : OpenPair.next ⟨'[', ']', 0⟩ c = some ⟨'[', ']', 0⟩ := by
        rw [OpenPair.next, if_neg here.1.2, if_neg here.2]
      rw [List.map_cons, List.cons_append, splitValue, next, ih later]
      simp
  have opened : splitValue 0 none before
      (('[' :: inside ++ [']']).map .code ++ after) =
        (.code '[' :: (splitValue 0 (some ⟨'[', ']', 0⟩) ('[' :: before)
            (inside.map .code ++ .code ']' :: after)).1,
          (splitValue 0 (some ⟨'[', ']', 0⟩) ('[' :: before)
            (inside.map .code ++ .code ']' :: after)).2) := by
    rw [List.map_append, List.append_assoc]
    rfl
  have read : (textOf (('[' :: inside ++ [']']).map .code)).reverse ++ before =
      ']' :: (inside.reverse ++ '[' :: before) := by
    rw [textOf_map_code]
    simp
  unfold GoesOver
  rw [opened, within, read]
  simp

end GoesOver

namespace WrittenMember

variable {modifier : Option Text} {key : WrittenKey}

/-- What is seen of a member behind a line end. -/
theorem opensWithMember_headPieces
    (blank : ∀ gap ∈ modifier, gap.all isAsciiBlank = true) (canonical : key.Canonical)
    (optional : Bool) (after : List Piece) :
    opensWithMember (textOf (headPieces modifier key optional after)) = !key.isIndex := by
  rw [textOf_headPieces]
  have seen := WrittenKey.opensWithKey_text canonical optional (textOf after)
  obtain ⟨c, rest, starts, solid, colon, mark⟩ := WrittenKey.exists_cons_text canonical
  unfold opensWithMember
  cases modifier with
  | none =>
    have start := WrittenKey.trimStart_append canonical (show List.all [] isBlank = true from rfl)
      (markText optional ++ ':' :: textOf after)
    dsimp only [modifierText]
    rw [start, seen]
    cases key with
    | word name => rfl
    | quoted mark inside => rfl
    | index inside => rfl
  | some gap =>
    have blanks : (' ' :: gap).all isBlank = true := by
      rw [List.all_cons, all_imp (fun _ => isBlank_of_isAsciiBlank) (blank gap rfl)]
      rfl
    generalize markText optional ++ ':' :: textOf after = behind at seen ⊢
    have start : trimStart (' ' :: (gap ++ (key.text ++ behind))) = key.text ++ behind :=
      WrittenKey.trimStart_append canonical blanks behind
    have noKey : opensWithKey ("readonly".toList ++ ' ' :: (gap ++ (key.text ++ behind))) =
        false := by
      have ends : keyEnd? ("readonly".toList ++ ' ' :: (gap ++ (key.text ++ behind))) =
          some (' ' :: (gap ++ (key.text ++ behind))) := rfl
      rw [opensWithKey_eq, ends, Option.any_some, colonNext, start, starts]
      simp [colon, mark]
    have whole : modifierText (some gap) ++ (key.text ++ behind) =
        "readonly".toList ++ ' ' :: (gap ++ (key.text ++ behind)) :=
      List.append_assoc _ _ _
    have trimmed : trimStart ("readonly".toList ++ ' ' :: (gap ++ (key.text ++ behind))) =
        "readonly".toList ++ ' ' :: (gap ++ (key.text ++ behind)) := rfl
    have prefixed : "readonly".toList.isPrefixOf?
        ("readonly".toList ++ ' ' :: (gap ++ (key.text ++ behind))) =
          some (' ' :: (gap ++ (key.text ++ behind))) := rfl
    have bare : trimStart (gap ++ (key.text ++ behind)) = key.text ++ behind :=
      (List.dropWhile_cons_of_pos rfl).symm.trans start
    dsimp only
    rw [whole, trimmed, noKey, prefixed, Bool.false_or]
    dsimp only
    rw [bare, seen]
    rfl

/-- A member in front of what ends its line. -/
def line (written : WrittenMember) : Text :=
  written.gap ++ modifierText written.modifier ++ written.key.text ++ markText written.optional ++
    ": " ++ written.value

/-- Lines one after another, each but the last with a line feed behind it. -/
def onLines (ending : Text) (lines : List WrittenMember) : Text :=
  join "\n" (lines.map fun written => written.line ++ ending)

/-- A canonical member that can do without a separator: nothing but blanks stand behind `readonly`,
and the value is there and does not ask for more. -/
structure LineEnded (written : WrittenMember) : Prop where
  gap : isGap written.gap = true
  modifier : ∀ gap ∈ written.modifier, gap.all isAsciiBlank = true
  key : written.key.Canonical
  value : CanonicalValue written.value
  filled : written.value ≠ []
  last : ∀ c ∈ written.value.getLast?, c ∉ ['|', '&', ':', '=', '<']

instance (written : WrittenMember) : Decidable written.LineEnded :=
  have : Decidable (∀ c ∈ written.value.getLast?, c ∉ ['|', '&', ':', '=', '<']) :=
    Option.decidableForallMem _
  decidable_of_iff (isGap written.gap = true ∧
      (∀ gap ∈ written.modifier, gap.all isAsciiBlank = true) ∧ written.key.Canonical ∧
      CanonicalValue written.value ∧ written.value ≠ [] ∧
      ∀ c ∈ written.value.getLast?, c ∉ ['|', '&', ':', '=', '<'])
    ⟨fun ⟨gap, modifier, key, value, filled, last⟩ => ⟨gap, modifier, key, value, filled, last⟩,
      fun ⟨gap, modifier, key, value, filled, last⟩ => ⟨gap, modifier, key, value, filled, last⟩⟩

/-- The members found in lines without separators: a line whose key is an index signature belongs to
the value before it. -/
def joined : List WrittenMember → List Member
  | [] => []
  | first :: rest =>
    ⟨first.key.name, first.optional, first.value ++
        (rest.takeWhile (·.key.isIndex)).flatMap fun written => '\n' :: written.line⟩ ::
      joined (rest.dropWhile (·.key.isIndex))
termination_by lines => lines.length
decreasing_by
  have bound := (List.dropWhile_sublist (l := rest) (·.key.isIndex)).length_le
  simp only [List.length_cons]
  omega

variable {written : WrittenMember} {before : Text} {after : List Piece}

theorem isGap_of_blanks {gap : Text} (blank : gap.all isAsciiBlank = true) : isGap gap = true := by
  have inert : gap.all Piece.isInert = true :=
    all_imp (fun _ here => isInert_of_isBlank (isBlank_of_isAsciiBlank here)) blank
  have scanned := pieces_append_code inert []
  rw [List.append_nil, pieces, List.append_nil] at scanned
  rw [isGap, scanned, Bool.and_eq_true]
  constructor
  · rwa [List.all_map]
  · clear scanned inert blank
    induction gap with
    | nil => rfl
    | cons c rest ih => exact ih

theorem headPieces_append (modifier : Option Text) (key : WrittenKey) (optional : Bool)
    (front back : List Piece) : headPieces modifier key optional (front ++ back) =
      headPieces modifier key optional front ++ back := by
  simp only [headPieces, List.append_assoc, List.cons_append]

/-- The pieces of a line. -/
def linePieces (written : WrittenMember) : List Piece :=
  pieces written.gap ++ headPieces written.modifier written.key written.optional
    (.code ' ' :: pieces written.value)

@[simp] theorem textOf_linePieces (written : WrittenMember) :
    textOf written.linePieces = written.line := by
  unfold linePieces line
  simp only [textOf_append, textOf_headPieces, textOf_cons, textOf_pieces, List.append_assoc]
  rfl

namespace LineEnded

theorem modifierGap (ended : written.LineEnded) : ∀ gap ∈ written.modifier, isGap gap = true :=
  fun gap listed => isGap_of_blanks (ended.modifier gap listed)

/-- Whether a line may end in front of a text. -/
def stops (rest : Text) : Bool := rest.head?.all fun c => isAsciiBlank c || c == ';'

/-- Scanning a line gives its own pieces and then those of what follows. -/
theorem pieces_append (ended : written.LineEnded) {rest : Text} (ends : stops rest = true) :
    pieces (written.line ++ rest) = written.linePieces ++ pieces rest := by
  have value : Aligned (pieces written.value ++ pieces rest) := by
    refine (aligned_pieces _).append_of_allClosed ended.value.2.1 (aligned_pieces rest) fun _ => ?_
    rw [textOf_pieces]
    constructor <;> intro mark <;> rw [stops, mark] at ends <;> contradiction
  have space : [' '].all Piece.isInert = true := rfl
  have aligned : Aligned (written.linePieces ++ pieces rest) := by
    rw [linePieces, List.append_assoc, ← headPieces_append]
    exact aligned_gap ended.gap (aligned_headPieces ended.modifierGap ended.key written.optional
      (Aligned.append_code space value))
  have scanned := pieces_textOf aligned
  rwa [textOf_append, textOf_linePieces, textOf_pieces] at scanned

/-- The word `readonly` is gone over in front of a key that is none of a member. -/
theorem goesOver_modifier (ended : written.LineEnded)
    (solid : after.head?.all (fun piece => !piece.isTrivia) = true)
    (noMember : opensWithMember (textOf after) = false) (before : Text) :
    GoesOver before (modifierPieces written.modifier) after := by
  have gaps := ended.modifierGap
  cases modifier : written.modifier with
  | none => exact .nil before _
  | some blanks =>
    have letters : readonlyKey.pieces = "readonly".toList.map .code := rfl
    have blank := gaps blanks modifier
    rw [isGap, Bool.and_eq_true] at blank
    rw [modifierPieces_some, letters]
    exact (GoesOver.flat (by decide)).append (.trivia blank.1 solid noMember)

/-- The break in front of a line with an index signature is gone over. -/
theorem goesOver_break (ended : written.LineEnded) (index : written.key.isIndex = true)
    (before : Text) (after : List Piece) : GoesOver before (.code '\n' :: pieces written.gap)
      (headPieces written.modifier written.key written.optional after) := by
  have breaks : (.code '\n' :: pieces written.gap : List Piece).all Piece.isTrivia = true := by
    have blank := ended.gap
    rw [isGap, Bool.and_eq_true] at blank
    exact blank.1
  refine .trivia breaks ?_ ?_
  · cases modifier : written.modifier with
    | none => exact WrittenKey.head?_append_solid ended.key _
    | some blanks => rfl
  · rw [opensWithMember_headPieces ended.modifier ended.key, index]
    rfl

/-- What stands behind the key of a line is gone over. -/
theorem goesOver_value (ended : written.LineEnded) (before : Text) (after : List Piece) :
    GoesOver before ((markText written.optional ++ [':', ' ']).map .code ++ pieces written.value)
      after := by
  have mark : (markText written.optional ++ [':', ' ']).all isFlat = true := by
    cases written.optional <;> decide
  have nested : Nesting.outer.returns none (pieces written.value) = true := ended.value.2.2
  refine (GoesOver.flat mark).append (GoesOver.of_returns nested ?_)
  rw [textOf_map_code]
  cases written.optional <;> simp [markText]

/-- A line with an index signature is gone over by a reader of values. -/
theorem goesOver_index (ended : written.LineEnded) (index : written.key.isIndex = true)
    (before : Text) (after : List Piece) :
    GoesOver before (.code '\n' :: written.linePieces) after := by
  obtain ⟨inside, same⟩ := WrittenKey.exists_of_isIndex index
  have key (before : Text) (after : List Piece) : GoesOver before written.key.pieces after := by
    have canonical := ended.key
    rw [same] at canonical ⊢
    exact .index canonical
  have noMember (more : List Piece) :
      opensWithMember (textOf (written.key.pieces ++ more)) = false := by
    rw [same]
    rfl
  have parts : .code '\n' :: written.linePieces = (.code '\n' :: pieces written.gap) ++
      (modifierPieces written.modifier ++ (written.key.pieces ++
        ((markText written.optional ++ [':', ' ']).map .code ++ pieces written.value))) := by
    simp [linePieces, headPieces]
  rw [parts]
  refine GoesOver.append ?_ (GoesOver.append ?_ ((key _ _).append (ended.goesOver_value _ _)))
  · have first := ended.goesOver_break index before (.code ' ' :: (pieces written.value ++ after))
    simpa [headPieces] using first
  · rw [List.append_assoc]
    exact ended.goesOver_modifier (WrittenKey.head?_append_solid ended.key _) (noMember _) _

/-- A value does not end with a comma: that of code would separate, and spans and comments end
otherwise. -/
theorem last_ne_comma (ended : written.LineEnded) : written.value.getLast? ≠ some ',' := by
  intro last
  obtain ⟨found, piece, whole⟩ : ∃ found piece, pieces written.value = found ++ [piece] := by
    rcases List.eq_nil_or_concat (pieces written.value) with none | some
    · rw [← textOf_pieces written.value, none] at last
      contradiction
    · simpa [List.concat_eq_append] using some
  have ends : piece.text.getLast? = some ',' := by
    have filled : piece.text ≠ [] := by
      have aligned := aligned_pieces written.value
      rw [whole] at aligned
      obtain ⟨⟨c, tail, starts, _⟩, _⟩ := aligned.of_append_right
      simp [starts]
    rw [← textOf_pieces written.value, whole, textOf_append, textOf_cons, textOf_nil,
      List.append_nil, List.getLast?_append_of_ne_nil _ filled] at last
    exact last
  have listed : (pieces written.value).getLast? = some piece := by simp [whole]
  have closed := Piece.isClosed_of_getLast? ended.value.2.1 listed
  cases piece with
  | code c =>
    obtain rfl : c = ',' := by simpa [Piece.text] using ends
    have known : ∀ closer ∈ Nesting.outer.closers, isCloser closer = true :=
      List.forall_mem_nil _
    exact absurd (Nesting.separates_of_getLast? known ended.value.2.2 listed) (by decide)
  | quoted span =>
    obtain ⟨quote, literal, rfl, _⟩ := Piece.literal_of_isClosedSpan closed
    obtain rfl : quote = ',' := Option.some.inj (List.getLast?_concat.symm.trans ends)
    simp [Piece.isClosed, Piece.isClosedSpan, Piece.isQuote] at closed
  | comment span =>
    unfold Piece.isClosed at closed
    split at closed
    · contradiction
    · contradiction
    · rename_i block same
      cases same
      rw [Piece.text, List.getLast?_cons, List.getLast?_cons,
        Piece.getLast?_of_endsBlock closed] at ends
      contradiction
    · contradiction

/-- The last character of a value neither is a blank nor asks for more. -/
theorem exists_last (ended : written.LineEnded) :
    ∃ front c, written.value = front ++ [c] ∧ isBlank c = false ∧ asksForMore c = false := by
  obtain ⟨front, c, whole⟩ : ∃ front c, written.value = front ++ [c] :=
    ⟨_, _, (List.dropLast_append_getLast ended.filled).symm⟩
  have last : written.value.getLast? = some c := by rw [whole, List.getLast?_concat]
  refine ⟨front, c, whole, ?_, ?_⟩
  · have stops := getLast?_trim_stops written.value
    rw [ended.value.1, last] at stops
    simpa using stops
  · have other := ended.last c last
    have noComma : c ≠ ',' := fun same => ended.last_ne_comma (same ▸ last)
    simp only [List.mem_cons, List.not_mem_nil, or_false, not_or] at other
    simp [asksForMore, other, noComma]

theorem endsLine_append (ended : written.LineEnded) (before : Text) (after : List Piece) :
    endsLine (written.value.reverse ++ before) after =
      opensWithMember (textOf (skipTrivia after)) := by
  obtain ⟨front, c, whole, solid, done⟩ := ended.exists_last
  have behind : (written.value.reverse ++ before).dropWhile isBlank =
      c :: (front.reverse ++ before) := by
    rw [whole, List.reverse_append, List.reverse_singleton, List.singleton_append, List.cons_append]
    exact List.dropWhile_cons_of_neg (by simp [solid])
  rw [endsLine, behind]
  dsimp only
  rw [done]
  rfl

end LineEnded

section Runs

variable {first : WrittenMember} {run others lines : List WrittenMember} {trail : Text}

/-- Lines with a line feed in front of each. -/
def runText (run : List WrittenMember) : Text := run.flatMap fun written => '\n' :: written.line

def runPieces (run : List WrittenMember) : List Piece :=
  run.flatMap fun written => .code '\n' :: written.linePieces

@[simp] theorem textOf_runPieces (run : List WrittenMember) :
    textOf (runPieces run) = runText run := by
  induction run with
  | nil => rfl
  | cons first run ih =>
    unfold runPieces runText at ih ⊢
    rw [List.flatMap_cons, List.flatMap_cons, textOf_append, ih, textOf_cons, textOf_linePieces]
    rfl

theorem onLines_cons (ending : Text) (first : WrittenMember) (rest : List WrittenMember) :
    onLines ending (first :: rest) =
      first.line ++ ending ++ rest.flatMap fun written => '\n' :: (written.line ++ ending) := by
  rw [onLines, List.map_cons, join_cons, List.flatMap_map]
  rfl

theorem stops_runText_append (run : List WrittenMember) (blank : LineEnded.stops trail = true) :
    LineEnded.stops (runText run ++ trail) = true := by
  cases run with
  | nil => exact blank
  | cons first run => rfl

theorem stops_of_blanks (blank : trail.all isAsciiBlank = true) :
    LineEnded.stops trail = true := by
  cases trail with
  | nil => rfl
  | cons c rest =>
    rw [List.all_cons, Bool.and_eq_true] at blank
    simp [LineEnded.stops, blank.1]

theorem pieces_runText_append (ended : ∀ written ∈ run, written.LineEnded)
    (blank : LineEnded.stops trail = true) :
    pieces (runText run ++ trail) = runPieces run ++ pieces trail := by
  induction run with
  | nil => rfl
  | cons first run ih =>
    have later := ih fun written listed => ended written (List.mem_cons_of_mem _ listed)
    have here := (ended first List.mem_cons_self).pieces_append (stops_runText_append run blank)
    have broken : pieces ('\n' :: (first.line ++ (runText run ++ trail))) =
        .code '\n' :: pieces (first.line ++ (runText run ++ trail)) :=
      pieces_append_code (show ['\n'].all Piece.isInert = true from rfl) _
    have text : runText (first :: run) ++ trail =
        '\n' :: (first.line ++ (runText run ++ trail)) := by
      simp [runText]
    rw [text, broken, here, later]
    simp [runPieces]

theorem goesOver_runPieces (ended : ∀ written ∈ run, written.LineEnded)
    (index : ∀ written ∈ run, written.key.isIndex = true) (before : Text) (after : List Piece) :
    GoesOver before (runPieces run) after := by
  induction run generalizing before with
  | nil => exact .nil before after
  | cons first run ih =>
    have later := ih (fun written listed => ended written (List.mem_cons_of_mem _ listed))
      (fun written listed => index written (List.mem_cons_of_mem _ listed))
    have here := (ended first List.mem_cons_self).goesOver_index (index first List.mem_cons_self)
      before (runPieces run ++ after)
    exact here.append (later _)

/-- The text that is read behind the colon of a line which others with index signatures follow. -/
def valueText (first : WrittenMember) (run : List WrittenMember) : Text :=
  first.value ++ runText run

/-- It ends with the value of a line. -/
theorem exists_valueText (ended : ∀ written ∈ first :: run, written.LineEnded) :
    ∃ last ∈ first :: run, ∃ front, valueText first run = front ++ last.value := by
  rcases List.eq_nil_or_concat run with rfl | ⟨lines, last, rfl⟩
  · exact ⟨first, List.mem_cons_self, [], by simp [valueText, runText]⟩
  · refine ⟨last, by simp, first.value ++ runText lines ++ '\n' :: (last.gap ++
      modifierText last.modifier ++ last.key.text ++ markText last.optional ++ ": "), ?_⟩
    simp [valueText, runText, line]

theorem trim_valueText (ended : ∀ written ∈ first :: run, written.LineEnded)
    (blank : trail.all isBlank = true) :
    trim (' ' :: (valueText first run ++ trail)) = valueText first run := by
  have here := ended first List.mem_cons_self
  obtain ⟨last, listed, front, whole⟩ := exists_valueText ended
  have starts : (valueText first run).head?.all (fun c => !isBlank c) = true := by
    have stops := head?_dropWhile_stops isBlank first.value
    have trimmed := trimStart_trim first.value
    rw [here.value.1] at trimmed
    rw [valueText, head?_append_of_ne_nil here.filled, ← trimmed]
    exact stops
  have stops : (valueText first run).getLast?.all (fun c => !isBlank c) = true := by
    have final := ended last listed
    rw [whole, List.getLast?_append_of_ne_nil _ final.filled, ← final.value.1]
    exact getLast?_trim_stops last.value
  have space : [' '].all isBlank = true := rfl
  exact (trim_of_blanks space _).trans
    ((trim_append_blanks blank _).trans (trim_append [] rfl starts stops))

/-- Behind its colon, a line is read on through those with index signatures. -/
theorem readValue_line (ended : ∀ written ∈ first :: run, written.LineEnded)
    (index : ∀ written ∈ run, written.key.isIndex = true) (after : List Piece) :
    GoesOver [] (.code ' ' :: (pieces first.value ++ runPieces run)) after := by
  have space : [' '].all isFlat = true := rfl
  have here := (ended first List.mem_cons_self).value.2.2
  have later := goesOver_runPieces (fun written listed =>
    ended written (List.mem_cons_of_mem _ listed)) index
  exact (GoesOver.flat space).append ((GoesOver.of_returns here (by decide)).append (later _ _))

/-- Blanks at the end of a body belong to the last value. -/
theorem splitValue_trail (blank : trail.all isAsciiBlank = true) (before : Text) :
    splitValue 0 none before (pieces trail) = (pieces trail, []) := by
  have gap := isGap_of_blanks blank
  rw [isGap, Bool.and_eq_true] at gap
  have passed : GoesOver before (pieces trail) [] := .trivia gap.1 rfl rfl
  unfold GoesOver at passed
  rw [List.append_nil] at passed
  exact passed.trans (by simp [splitValue])

/-- A line whose key is seen ends the value before it. -/
theorem splitValue_line {next : WrittenMember} (ended : ∀ written ∈ first :: run, written.LineEnded)
    (follows : next.LineEnded) (seen : next.key.isIndex = false) (before : Text)
    (after : List Piece) :
    splitValue 0 none ((valueText first run).reverse ++ before)
        (.code '\n' :: (next.linePieces ++ after)) =
      ([], .code '\n' :: (next.linePieces ++ after)) := by
  obtain ⟨last, listed, front, whole⟩ := exists_valueText ended
  have skipped : skipTrivia (next.linePieces ++ after) =
      headPieces next.modifier next.key next.optional
        (.code ' ' :: (pieces next.value ++ after)) := by
    rw [linePieces, List.append_assoc, ← headPieces_append]
    refine skipTrivia_gap follows.gap ?_
    cases next.modifier with
    | none => exact WrittenKey.head?_append_solid follows.key _
    | some gap => rfl
  have ends : endsLine ((valueText first run).reverse ++ before) (next.linePieces ++ after) =
      true := by
    rw [whole, List.reverse_append, List.append_assoc, (ended last listed).endsLine_append, skipped,
      opensWithMember_headPieces follows.modifier follows.key, seen]
    rfl
  rw [splitValue, if_pos]
  simp [endsValue, ends]

/-- The first member of a body, and those of the lines behind what belongs to its value. -/
theorem members_line (ended : ∀ written ∈ first :: run, written.LineEnded)
    (index : ∀ written ∈ run, written.key.isIndex = true) {rest : Text}
    (ends : LineEnded.stops rest = true) {value left : List Piece}
    (read : splitValue 0 none ((valueText first run).reverse ++ [' ']) (pieces rest) =
      (value, left)) :
    members (first.line ++ (runText run ++ rest)) =
      ⟨first.key.name, first.optional,
          trim (' ' :: (valueText first run ++ textOf value))⟩ ::
        (entriesFrom (left.drop 1)).map (·.member) := by
  have here := ended first List.mem_cons_self
  have scanned : pieces (first.line ++ (runText run ++ rest)) = pieces first.gap ++
      headPieces first.modifier first.key first.optional
        (.code ' ' :: (pieces first.value ++ runPieces run) ++ pieces rest) := by
    rw [here.pieces_append (stops_runText_append run ends),
      pieces_runText_append (fun written listed => ended written (List.mem_cons_of_mem _ listed))
        ends, linePieces, List.append_assoc, ← headPieces_append]
    simp
  have start (more : List Piece) :
      (pieces first.gap ++ headPieces first.modifier first.key first.optional more).dropWhile
          Piece.isSeparator = headPieces first.modifier first.key first.optional more :=
    dropSeparators_gap here.gap (head?_headPieces_stops here.key _ _)
  have passed := readValue_line ended index (pieces rest)
  have behind : (textOf (.code ' ' :: (pieces first.value ++ runPieces run))).reverse ++ [] =
      (valueText first run).reverse ++ [' '] := by
    simp [valueText, Piece.text, textOf_pieces]
  unfold GoesOver at passed
  rw [behind, read] at passed
  have filled (more : List Piece) :
      headPieces first.modifier first.key first.optional more ≠ [] := by
    simp [headPieces]
  rw [members, entries, scanned, entriesFrom_of_start (filled _) (start _),
    readEntry_headPieces here.modifierGap here.key, readValue, passed]
  simp [valueText, Piece.text, textOf_pieces]

theorem onLines_append (first : WrittenMember) (run others : List WrittenMember) (trail : Text) :
    onLines [] (first :: (run ++ others)) ++ trail =
      first.line ++ (runText run ++ (runText others ++ trail)) := by
  rw [onLines_cons]
  simp [runText]

/-- The last lines of a body, with index signatures behind the first of them. -/
theorem members_last (ended : ∀ written ∈ first :: run, written.LineEnded)
    (index : ∀ written ∈ run, written.key.isIndex = true)
    (blank : trail.all isAsciiBlank = true) :
    members (first.line ++ (runText run ++ trail)) =
      [⟨first.key.name, first.optional, valueText first run⟩] := by
  have read := splitValue_trail blank ((valueText first run).reverse ++ [' '])
  have trimmed := trim_valueText ended (all_imp (fun _ => isBlank_of_isAsciiBlank) blank)
  have none : entriesFrom [] = [] := entriesFrom_of_empty rfl
  rw [members_line ended index (stops_of_blanks blank) read, textOf_pieces, trimmed,
    List.drop_nil, none]
  rfl

/-- Lines with index signatures behind the first of them, and a line with another key behind them. -/
theorem members_more {next : WrittenMember} (ended : ∀ written ∈ first :: run, written.LineEnded)
    (index : ∀ written ∈ run, written.key.isIndex = true) (follows : next.LineEnded)
    (seen : next.key.isIndex = false) (ends : LineEnded.stops trail = true) :
    members (first.line ++ (runText run ++ '\n' :: (next.line ++ trail))) =
      ⟨first.key.name, first.optional, valueText first run⟩ :: members (next.line ++ trail) := by
  have scanned := follows.pieces_append ends
  have broken : pieces ('\n' :: (next.line ++ trail)) = .code '\n' :: pieces (next.line ++ trail) :=
    pieces_append_code (show ['\n'].all Piece.isInert = true from rfl) _
  have read := splitValue_line ended follows seen [' '] (pieces trail)
  rw [← scanned, ← broken] at read
  have trimmed := trim_valueText ended (show List.all [] isBlank = true from rfl)
  rw [members_line ended index rfl read, broken, textOf_nil, trimmed, List.drop_one, List.tail_cons]
  rfl

/-- Without separators, the members of lines are those that the lines are joined to. -/
theorem members_onLines (ended : ∀ written ∈ lines, written.LineEnded)
    (blank : trail.all isAsciiBlank = true) :
    members (onLines [] lines ++ trail) = joined lines := by
  fun_induction joined lines with
  | case1 =>
    have gap := isGap_of_blanks blank
    have none : (pieces trail ++ []).dropWhile Piece.isSeparator = [] :=
      dropSeparators_gap gap rfl
    rw [List.append_nil] at none
    rw [onLines, List.map_nil, join, List.intercalate_nil, List.nil_append, members, entries,
      entriesFrom_of_empty none]
    rfl
  | case2 first rest ih =>
    have parts : rest.takeWhile (·.key.isIndex) ++ rest.dropWhile (·.key.isIndex) = rest :=
      List.takeWhile_append_dropWhile
    have index : ∀ written ∈ rest.takeWhile (·.key.isIndex), written.key.isIndex = true :=
      fun written listed => List.all_eq_true.mp List.all_takeWhile written listed
    have stop := List.head?_dropWhile_not (·.key.isIndex) rest
    generalize rest.takeWhile (·.key.isIndex) = run at parts index ⊢
    generalize rest.dropWhile (·.key.isIndex) = others at parts stop ih ⊢
    subst parts
    have here : ∀ written ∈ first :: run, written.LineEnded :=
      fun written listed => ended written (by simp at listed ⊢; tauto)
    have later := ih fun written listed => ended written (by simp [listed])
    rw [onLines_append]
    cases others with
    | nil =>
      have bare : runText [] ++ trail = trail := rfl
      rw [bare, members_last here index blank, joined]
      rfl
    | cons next more =>
      have follows : next.LineEnded := ended next (by simp)
      have seen : next.key.isIndex = false := by simpa using stop
      have ends := stops_runText_append more (stops_of_blanks blank)
      have whole : onLines [] (next :: more) ++ trail = next.line ++ (runText more ++ trail) := by
        have bare := onLines_append next [] more trail
        simpa [runText] using bare
      have text : runText (next :: more) ++ trail = '\n' :: (next.line ++ (runText more ++ trail)) := by
        simp [runText]
      rw [text, members_more here index follows seen ends, ← whole, later]
      rfl

theorem members_break (text : Text) : members ('\n' :: text) = members text := by
  have broken : pieces ('\n' :: text) = .code '\n' :: pieces text :=
    pieces_append_code (show ['\n'].all Piece.isInert = true from rfl) text
  rw [members, entries, broken, entriesFrom_of_separators (List.dropWhile_cons_of_pos rfl)]
  rfl

theorem members_semicolon_append (ended : first.LineEnded) (rest : Text) :
    members (first.line ++ [';'] ++ rest) = first.member :: members rest := by
  have canonical : ({ first with separator := ';' } : WrittenMember).Canonical :=
    ⟨ended.gap, ended.modifierGap, ended.key, ended.value, .inl rfl⟩
  exact members_text_append canonical rest

/-- With a semicolon behind each line, the members are those that were written. -/
theorem members_onLines_semicolon (ended : ∀ written ∈ lines, written.LineEnded)
    (blank : trail.all isAsciiBlank = true) :
    members (onLines [';'] lines ++ trail) = lines.map member := by
  have last : members trail = [] := by
    have none : members (onLines [] [] ++ trail) = joined [] := members_onLines nofun blank
    rwa [joined] at none
  cases lines with
  | nil => exact last
  | cons first rest =>
    have later : members (rest.flatMap (fun written => '\n' :: (written.line ++ [';'])) ++ trail) =
        rest.map member := by
      have each : ∀ written ∈ rest, written.LineEnded :=
        fun written listed => ended written (List.mem_cons_of_mem _ listed)
      clear ended
      induction rest with
      | nil => exact last
      | cons second rest ih =>
        rw [List.flatMap_cons, List.cons_append, List.cons_append, members_break,
          List.append_assoc, members_semicolon_append (each second List.mem_cons_self),
          ih fun written listed => each written (List.mem_cons_of_mem _ listed), List.map_cons]
    rw [onLines_cons, List.append_assoc, members_semicolon_append (ended first List.mem_cons_self),
      later, List.map_cons]

/-- Joined lines are fewer. -/
theorem length_joined (lines : List WrittenMember) : (joined lines).length ≤ lines.length := by
  fun_induction joined lines with
  | case1 => exact Nat.le_refl 0
  | case2 first rest ih =>
    have bound := (List.dropWhile_sublist (l := rest) (·.key.isIndex)).length_le
    simp only [List.length_cons]
    omega

theorem joined_eq_map_iff (lines : List WrittenMember) :
    joined lines = lines.map member ↔ ∀ written ∈ lines.tail, written.key.isIndex = false := by
  fun_induction joined lines with
  | case1 => exact iff_of_true rfl nofun
  | case2 first rest ih =>
    rw [List.tail_cons, List.map_cons, List.cons.injEq]
    constructor
    · rintro ⟨_, same⟩
      have shorter := List.dropWhile_sublist (l := rest) (·.key.isIndex)
      have fewer := length_joined (rest.dropWhile (·.key.isIndex))
      rw [same, List.length_map] at fewer
      have all := shorter.eq_of_length_le fewer
      rw [all] at same ih
      have stop := List.head?_dropWhile_not (·.key.isIndex) rest
      rw [all] at stop
      cases rest with
      | nil => exact nofun
      | cons second rest =>
        refine List.forall_mem_cons.mpr ⟨by simpa using stop, ih.mp same⟩
    · intro seen
      have stops : rest.head?.all (fun written => !written.key.isIndex) = true := by
        cases rest with
        | nil => rfl
        | cons second rest => simp [seen second List.mem_cons_self]
      have taken : rest.takeWhile (·.key.isIndex) = [] := takeWhile_append_of_stop [] rfl stops
      have left : rest.dropWhile (·.key.isIndex) = rest := dropWhile_append_of_stop [] rfl stops
      rw [left] at ih
      rw [taken, left, ih.mpr fun written listed => seen written (List.mem_of_mem_tail listed)]
      exact ⟨by simp [member], rfl⟩

end Runs

/-- With a semicolon behind each line, the members of canonical lines are those that were written.
Without separators, a line whose key is an index signature is part of the value before it, so that
both give the same members exactly if there is no such line behind the first. -/
theorem members_of_lines (lines : List WrittenMember) (trail : Text)
    (ended : ∀ written ∈ lines, written.LineEnded) (blank : trail.all isAsciiBlank = true) :
    members (onLines [';'] lines ++ trail) = lines.map member ∧
      members (onLines [] lines ++ trail) = joined lines ∧
      (members (onLines [] lines ++ trail) = members (onLines [';'] lines ++ trail) ↔
        ∀ written ∈ lines.tail, written.key.isIndex = false) := by
  have separated := members_onLines_semicolon ended blank
  have found := members_onLines ended blank
  refine ⟨separated, found, ?_⟩
  rw [separated, found]
  exact joined_eq_map_iff lines

/-- Lines with an index signature among them. -/
def dictionary : List WrittenMember :=
  [⟨"\n  ", some "", .word "a", true, "\x7b b: string \x7d[] | Map<string, c>", ';'⟩,
    ⟨"  ", none, .quoted '"' "x-d", false, "(e: f) => g", ';'⟩,
    ⟨"  ", none, .index "key: string", false, "number", ';'⟩,
    ⟨"  ", none, .word "200", false, "'h;'", ';'⟩]

theorem members_dictionary :
    members (onLines [';'] dictionary ++ "\n") = dictionary.map member ∧
      members (onLines [] dictionary ++ "\n") = joined dictionary ∧
      members (onLines [] dictionary ++ "\n") ≠ members (onLines [';'] dictionary ++ "\n") := by
  have ended : ∀ written ∈ dictionary, written.LineEnded := by decide +kernel
  obtain ⟨separated, found, same⟩ :=
    members_of_lines dictionary "\n" ended (by decide)
  exact ⟨separated, found, fun equal => absurd (same.mp equal) (by decide)⟩

/-- A line with an index signature is swallowed where no separators are written, and found where they
are. -/
theorem index_line_swallowed :
    members "a: string\n[key: string]: number\n" =
        [⟨"a", false, "string\n[key: string]: number"⟩] ∧
      members "a: string;\n[key: string]: number;\n" =
        [⟨"a", false, "string"⟩, ⟨"[key: string]", false, "number"⟩] := by
  decide +kernel

end WrittenMember

end TypedClient
