import TypedClient.Proofs.Piece.Closed
import TypedClient.Proofs.TypeLiteral.Nesting

/-!
Members written one after another, each with its separator. Main statement: the members that are
found in such a body are those that were written, in order, however deep their values nest.
-/

namespace TypedClient

open Text

theorem Piece.isSeparator_of_isTrivia (piece : Piece) (trivia : piece.isTrivia = true) :
    piece.isSeparator = true := by
  cases piece with
  | code c =>
    have blank : isAsciiBlank c = true := trivia
    simp [isSeparator, blank]
  | quoted span => contradiction
  | comment span => rfl

/-- A key as it is written. -/
inductive WrittenKey
  /-- An identifier or a number. -/
  | word (name : Text)
  | quoted (mark : Char) (inside : Text)
  /-- An index signature, without its brackets. -/
  | index (inside : Text)
  deriving DecidableEq, Repr

namespace WrittenKey

def text : WrittenKey → Text
  | word name => name
  | quoted mark inside => mark :: inside ++ [mark]
  | index inside => '[' :: inside ++ [']']

def name : WrittenKey → Text
  | word name => name
  | quoted _ inside => inside
  | index inside => '[' :: inside ++ [']']

/-- Whether a character can stand inside an index signature: no bracket, quote or slash. -/
def isIndexChar (c : Char) : Bool := Piece.isInert c && c != '[' && c != ']'

/-- A word of letters, digits, `_` and `$`, a quoted text without its quote or a backslash, or an
index signature without brackets, quotes or slashes inside. -/
def Canonical : WrittenKey → Prop
  | word name => name ≠ [] ∧ name.all isKeyChar = true
  | quoted mark inside => (mark = '"' ∨ mark = '\'') ∧ mark ∉ inside ∧ '\\' ∉ inside
  | index inside => inside.all isIndexChar = true

instance : (key : WrittenKey) → Decidable key.Canonical
  | word name => inferInstanceAs (Decidable (name ≠ [] ∧ name.all isKeyChar = true))
  | quoted mark inside =>
    inferInstanceAs (Decidable ((mark = '"' ∨ mark = '\'') ∧ mark ∉ inside ∧ '\\' ∉ inside))
  | index inside => inferInstanceAs (Decidable (inside.all isIndexChar = true))

def pieces : WrittenKey → List Piece
  | word name => name.map .code
  | quoted mark inside => [.quoted (mark :: inside ++ [mark])]
  | index inside => ('[' :: inside ++ [']']).map .code

variable {key : WrittenKey} {after : List Piece}

@[simp] theorem textOf_pieces (key : WrittenKey) : textOf key.pieces = key.text := by
  cases key with
  | word name => exact textOf_map_code name
  | quoted mark inside => exact List.append_nil _
  | index inside => exact textOf_map_code _

theorem endsQuoted_of_plain {mark : Char} {inside : Text} (noMark : mark ∉ inside)
    (noEscape : '\\' ∉ inside) (noBackslash : mark ≠ '\\') :
    Piece.endsQuoted mark (inside ++ [mark]) = true := by
  induction inside with
  | nil => rw [List.nil_append, Piece.endsQuoted_cons noBackslash, if_pos rfl]; rfl
  | cons c rest ih =>
    rw [List.mem_cons, not_or] at noMark noEscape
    rw [List.cons_append, Piece.endsQuoted_cons (Ne.symm noEscape.1), if_neg (Ne.symm noMark.1)]
    exact ih noMark.2 noEscape.2

theorem plain_of_isKeyChar {c : Char} (word : isKeyChar c = true) :
    Piece.isInert c = true ∧ (Piece.code c).isSeparator = false ∧ c ≠ '[' := by
  have each : (Piece.isInert c && !(Piece.code c).isSeparator && c != '[') = true := by
    simp only [isKeyChar, Bool.or_eq_true, beq_iff_eq] at word
    rcases word with (word | rfl) | rfl
    · exact alphanum_imp
        (q := fun c => Piece.isInert c && !(Piece.code c).isSeparator && c != '[')
        (by decide) word
    · decide
    · decide
  simpa [and_assoc] using each

theorem aligned_append (canonical : key.Canonical) (back : Aligned after) :
    Aligned (key.pieces ++ after) := by
  cases key with
  | word name =>
    exact back.append_code (all_imp (fun _ word => (plain_of_isKeyChar word).1) canonical.2)
  | quoted mark inside =>
    obtain ⟨marks, noMark, noEscape⟩ := canonical
    refine ⟨Piece.endsBefore_quoted ?_ (endsQuoted_of_plain noMark noEscape ?_) _, back⟩
    · rcases marks with rfl | rfl <;> rfl
    · rcases marks with rfl | rfl <;> decide
  | index inside =>
    refine back.append_code ?_
    have within : inside.all Piece.isInert = true :=
      all_imp (fun c here => by simp_all [isIndexChar]) canonical
    rw [List.cons_append, List.all_cons, List.all_append, within]
    rfl

theorem splitClose_of_plain {opening closing : Char} {inside : Text}
    (plain : ∀ c ∈ inside, c ≠ opening ∧ c ≠ closing) (other : closing ≠ opening)
    (after : List Piece) :
    splitClose opening closing 0 (inside.map .code ++ .code closing :: after) =
      some (inside.map .code, after) := by
  induction inside with
  | nil => rw [List.map_nil, List.nil_append, splitClose, if_neg other, if_pos rfl]
  | cons c rest ih =>
    obtain ⟨notOpening, notClosing⟩ := plain c List.mem_cons_self
    rw [List.map_cons, List.cons_append, splitClose, if_neg notOpening, if_neg notClosing,
      ih fun d member => plain d (List.mem_cons_of_mem _ member)]
    rfl

/-- A key is read as its name, if what stands behind it does not go on with it. -/
theorem readKey?_append (canonical : key.Canonical)
    (stops : after.head?.all (fun piece => !piece.isKeyPiece) = true) :
    readKey? (key.pieces ++ after) = some (key.name, after) := by
  cases key with
  | word name =>
    obtain ⟨filled, word⟩ := canonical
    cases name with
    | nil => contradiction
    | cons c rest =>
      rw [List.all_cons, Bool.and_eq_true] at word
      have run : (rest.map Piece.code).all Piece.isKeyPiece = true := by
        rw [List.all_map]
        exact word.2
      rw [pieces, List.map_cons, List.cons_append, readKey?,
        if_neg (plain_of_isKeyChar word.1).2.2, if_pos word.1,
        takeWhile_append_of_stop _ run stops, dropWhile_append_of_stop _ run stops,
        textOf_map_code]
      rfl
  | quoted mark inside =>
    obtain ⟨marks, noMark, noEscape⟩ := canonical
    have isQuote : Piece.isQuote mark = true := by rcases marks with rfl | rfl <;> rfl
    have template : (mark :: inside ++ [mark]).head? ≠ some '\x60' := by
      rcases marks with rfl | rfl <;> simp
    have read : insideQuotes? (mark :: inside ++ [mark]) = some inside := by
      rw [insideQuotes?, List.cons_append, List.tail_cons, List.reverse_append]
      simp [Piece.utf8Size_of_isQuote isQuote]
    have escaped : replace "\\'" "'" (replace "\\\"" "\"" inside) = inside := by
      have first : replace "\\\"" "\"" inside = inside := replace_of_absent noEscape
      rw [first]
      exact replace_of_absent noEscape
    rw [pieces, List.singleton_append, readKey?, if_neg template, read, Option.map_some, escaped]
    rfl
  | index inside =>
    have brackets : ∀ c ∈ inside, c ≠ '[' ∧ c ≠ ']' := by
      intro c member
      have here := List.all_eq_true.mp canonical c member
      simp only [isIndexChar, Bool.and_eq_true, bne_iff_ne] at here
      exact ⟨here.1.2, here.2⟩
    have split : splitClose '[' ']' 0 (inside.map .code ++ .code ']' :: after) =
        some (inside.map .code, after) :=
      splitClose_of_plain brackets (by decide) after
    have whole : pieces (.index inside) ++ after =
        .code '[' :: (inside.map .code ++ .code ']' :: after) := by
      simp [pieces]
    rw [whole, readKey?, if_pos rfl, split]
    simp only [textOf_map_code]
    rfl

/-- A key begins with neither a separator nor a blank nor a comment. -/
theorem head?_append_stops (canonical : key.Canonical) (after : List Piece) :
    (key.pieces ++ after).head?.all (fun piece => !piece.isSeparator) = true := by
  cases key with
  | word name =>
    obtain ⟨filled, word⟩ := canonical
    cases name with
    | nil => contradiction
    | cons c rest =>
      rw [List.all_cons, Bool.and_eq_true] at word
      have plain : (Piece.code c).isSeparator = false := (plain_of_isKeyChar word.1).2.1
      simp [pieces, plain]
  | quoted mark inside => rfl
  | index inside => rfl

theorem head?_append_solid (canonical : key.Canonical) (after : List Piece) :
    (key.pieces ++ after).head?.all (fun piece => !piece.isTrivia) = true := by
  have stops := head?_append_stops canonical after
  cases first : (key.pieces ++ after).head? with
  | none => rfl
  | some piece =>
    rw [first] at stops
    cases trivia : piece.isTrivia with
    | false => simp [trivia]
    | true => simp [piece.isSeparator_of_isTrivia trivia] at stops

end WrittenKey

/-- Whether a text is made of ASCII blanks and closed comments. -/
def isGap (text : Text) : Bool :=
  (pieces text).all Piece.isTrivia && allClosed (pieces text)

section Gap

variable {gap : Text} {after : List Piece}

theorem aligned_gap (isGap : isGap gap = true) (back : Aligned after) :
    Aligned (pieces gap ++ after) := by
  rw [TypedClient.isGap, Bool.and_eq_true] at isGap
  refine (aligned_pieces gap).append_of_allClosed isGap.2 back fun last => ?_
  have trivia := List.all_eq_true.mp isGap.1 _ (List.mem_of_getLast? last)
  contradiction

theorem skipTrivia_gap (isGap : isGap gap = true)
    (stops : after.head?.all (fun piece => !piece.isTrivia) = true) :
    skipTrivia (pieces gap ++ after) = after := by
  rw [TypedClient.isGap, Bool.and_eq_true] at isGap
  exact dropWhile_append_of_stop _ isGap.1 stops

theorem dropSeparators_gap (isGap : isGap gap = true)
    (stops : after.head?.all (fun piece => !piece.isSeparator) = true) :
    (pieces gap ++ after).dropWhile Piece.isSeparator = after := by
  rw [TypedClient.isGap, Bool.and_eq_true] at isGap
  refine dropWhile_append_of_stop _ (List.all_eq_true.mpr fun piece member => ?_) stops
  exact piece.isSeparator_of_isTrivia (List.all_eq_true.mp isGap.1 piece member)

end Gap

/-- A trimmed text whose quoted spans and comments are closed, whose brackets nest, and whose
separators stand in brackets or angle brackets. -/
def CanonicalValue (value : Text) : Prop :=
  trim value = value ∧ allClosed (pieces value) = true ∧
    Nesting.outer.returns none (pieces value) = true

instance (value : Text) : Decidable (CanonicalValue value) :=
  inferInstanceAs (Decidable (trim value = value ∧ allClosed (pieces value) = true ∧
    Nesting.outer.returns none (pieces value) = true))

/-- A member as it is written, with what stands before it and its separator. -/
structure WrittenMember where
  gap : Text
  /-- For a readonly member, what stands between `readonly` with a space and the key. -/
  modifier : Option Text
  key : WrittenKey
  optional : Bool
  value : Text
  separator : Char
  deriving DecidableEq, Repr

namespace WrittenMember

def readonlyKey : WrittenKey := .word "readonly"

def modifierText : Option Text → Text
  | none => []
  | some gap => readonlyKey.text ++ ' ' :: gap

def markText (optional : Bool) : Text := if optional then ['?'] else []

def text (written : WrittenMember) : Text :=
  written.gap ++ modifierText written.modifier ++ written.key.text ++ markText written.optional ++
    ": " ++ written.value ++ [written.separator]

def member (written : WrittenMember) : Member :=
  ⟨written.key.name, written.optional, written.value⟩

/-- The gaps hold nothing but blanks and comments, key and value are canonical, and the value is
followed by a semicolon or a comma. -/
structure Canonical (written : WrittenMember) : Prop where
  gap : isGap written.gap = true
  modifier : ∀ gap ∈ written.modifier, isGap gap = true
  key : written.key.Canonical
  value : CanonicalValue written.value
  separator : written.separator = ';' ∨ written.separator = ','

instance (written : WrittenMember) : Decidable written.Canonical :=
  decidable_of_iff (isGap written.gap = true ∧ (∀ gap ∈ written.modifier, isGap gap = true) ∧
      written.key.Canonical ∧ CanonicalValue written.value ∧
      (written.separator = ';' ∨ written.separator = ','))
    ⟨fun ⟨gap, modifier, key, value, separator⟩ => ⟨gap, modifier, key, value, separator⟩,
      fun ⟨gap, modifier, key, value, separator⟩ => ⟨gap, modifier, key, value, separator⟩⟩

section Pieces

def modifierPieces : Option Text → List Piece
  | none => []
  | some gap => readonlyKey.pieces ++ .code ' ' :: pieces gap

theorem modifierPieces_some (gap : Text) :
    modifierPieces (some gap) = readonlyKey.pieces ++ .code ' ' :: pieces gap := rfl

theorem canonical_readonlyKey : readonlyKey.Canonical := by decide

/-- The pieces of a member up to its colon, in front of others. -/
def headPieces (modifier : Option Text) (key : WrittenKey) (optional : Bool)
    (after : List Piece) : List Piece :=
  modifierPieces modifier ++ (key.pieces ++
    ((markText optional).map .code ++ .code ':' :: after))

/-- The pieces of a member from behind its colon on. -/
def following (written : WrittenMember) (after : List Piece) : List Piece :=
  .code ' ' :: (pieces written.value ++ .code written.separator :: after)

/-- The pieces of a member without the gap before it. -/
def entryPieces (written : WrittenMember) (after : List Piece) : List Piece :=
  modifierPieces written.modifier ++ (written.key.pieces ++
    ((markText written.optional).map .code ++ .code ':' :: written.following after))

theorem entryPieces_eq (written : WrittenMember) (after : List Piece) : written.entryPieces after =
    headPieces written.modifier written.key written.optional (written.following after) := rfl

variable {modifier : Option Text} {key : WrittenKey} {written : WrittenMember}
  {after : List Piece}

theorem aligned_modifierPieces (gaps : ∀ gap ∈ modifier, isGap gap = true) (back : Aligned after) :
    Aligned (modifierPieces modifier ++ after) := by
  cases modifier with
  | none => exact back
  | some gap =>
    rw [modifierPieces_some, List.append_assoc]
    have blank : [' '].all Piece.isInert = true := rfl
    exact WrittenKey.aligned_append canonical_readonlyKey
      (Aligned.append_code blank (aligned_gap (gaps gap rfl) back))

theorem aligned_headPieces (gaps : ∀ gap ∈ modifier, isGap gap = true)
    (canonical : key.Canonical) (optional : Bool) (back : Aligned after) :
    Aligned (headPieces modifier key optional after) := by
  have colon : [':'].all Piece.isInert = true := rfl
  have mark : Aligned ((markText optional).map .code ++ .code ':' :: after) := by
    refine Aligned.append_code ?_ (Aligned.append_code colon back)
    cases optional <;> rfl
  exact aligned_modifierPieces gaps (WrittenKey.aligned_append canonical mark)

theorem aligned_entryPieces (canonical : written.Canonical) (back : Aligned after) :
    Aligned (written.entryPieces after) := by
  have inert : [written.separator].all Piece.isInert = true := by
    rcases canonical.separator with same | same <;> rw [same] <;> rfl
  have separator : Aligned (.code written.separator :: after) := Aligned.append_code inert back
  have value : Aligned (pieces written.value ++ .code written.separator :: after) := by
    refine (aligned_pieces _).append_of_allClosed canonical.value.2.1 separator fun _ => ?_
    rcases canonical.separator with same | same <;> rw [same] <;> exact ⟨nofun, nofun⟩
  have space : [' '].all Piece.isInert = true := rfl
  exact aligned_headPieces canonical.modifier canonical.key written.optional
    (Aligned.append_code space value)

theorem textOf_headPieces (modifier : Option Text) (key : WrittenKey) (optional : Bool)
    (after : List Piece) : textOf (headPieces modifier key optional after) =
      modifierText modifier ++ (key.text ++ (markText optional ++ ':' :: textOf after)) := by
  have written : textOf (modifierPieces modifier) = modifierText modifier := by
    cases modifier with
    | none => rfl
    | some gap =>
      rw [modifierPieces_some, textOf_append, WrittenKey.textOf_pieces, textOf_cons,
        textOf_pieces]
      rfl
  unfold headPieces
  simp only [textOf_append, textOf_cons, textOf_map_code, written, WrittenKey.textOf_pieces]
  rfl

theorem textOf_entryPieces (written : WrittenMember) (after : List Piece) :
    textOf (pieces written.gap ++ written.entryPieces after) = written.text ++ textOf after := by
  unfold text
  simp only [entryPieces_eq, following, textOf_append, textOf_cons, textOf_headPieces, textOf_pieces,
    Piece.text, List.append_assoc]
  rfl

/-- Scanning a member gives its own pieces and then those of what follows. -/
theorem pieces_text_append (canonical : written.Canonical) (rest : Text) :
    pieces (written.text ++ rest) =
      pieces written.gap ++ written.entryPieces (pieces rest) := by
  have aligned := aligned_gap canonical.gap
    (aligned_entryPieces canonical (aligned_pieces rest))
  rw [← pieces_textOf aligned, textOf_entryPieces, textOf_pieces]

/-- A key with nothing to skip behind it is the member's own, also where it is `readonly`. -/
theorem readModifiedKey?_of_solid {found : List Piece} {name : Text}
    (read : readKey? found = some (name, after))
    (solid : after.head?.all (fun piece => !piece.isTrivia) = true) :
    readModifiedKey? found = some (name, after) := by
  have still : skipTrivia after = after := dropWhile_append_of_stop [] rfl solid
  rw [readModifiedKey?, read]
  exact if_neg fun both => Nat.lt_irrefl _ (still ▸ both.2)

/-- A `readonly` that a key follows is read over, also where that key is `readonly`. -/
theorem readModifiedKey?_append (gaps : ∀ gap ∈ modifier, isGap gap = true)
    (canonical : key.Canonical)
    (stops : after.head?.all (fun piece => !piece.isKeyPiece) = true)
    (solid : after.head?.all (fun piece => !piece.isTrivia) = true) :
    readModifiedKey? (modifierPieces modifier ++ (key.pieces ++ after)) =
      some (key.name, after) := by
  have read := WrittenKey.readKey?_append canonical stops
  cases modifier with
  | none => exact readModifiedKey?_of_solid read solid
  | some gap =>
    have whole : modifierPieces (some gap) ++ (key.pieces ++ after) = readonlyKey.pieces ++
        .code ' ' :: (pieces gap ++ (key.pieces ++ after)) := by
      rw [modifierPieces_some, List.append_assoc, List.cons_append]
    have skipped : skipTrivia (.code ' ' :: (pieces gap ++ (key.pieces ++ after))) =
        key.pieces ++ after :=
      (List.dropWhile_cons_of_pos rfl).trans
        (skipTrivia_gap (gaps gap rfl) (WrittenKey.head?_append_solid canonical after))
    have shorter : (key.pieces ++ after).length <
        (.code ' ' :: (pieces gap ++ (key.pieces ++ after)) : List Piece).length := by
      simp only [List.length_cons, List.length_append]
      omega
    rw [whole, readModifiedKey?, WrittenKey.readKey?_append canonical_readonlyKey rfl]
    simp only [skipped, read]
    exact if_pos ⟨rfl, shorter⟩

theorem readMark_append (optional : Bool) (after : List Piece) :
    readMark ((markText optional).map .code ++ .code ':' :: after) =
      (optional, .code ':' :: after) := by
  cases optional <;> rfl

/-- A member is read as its key, its mark and the value behind its colon. -/
theorem readEntry_of_key {found : List Piece} {name : Text} {optional : Bool}
    (read : readModifiedKey? found =
      some (name, (markText optional).map .code ++ .code ':' :: after)) :
    readEntry found = (some ⟨⟨name, optional, trim (textOf (readValue after).1)⟩, after⟩,
      (readValue after).2.drop 1) := by
  rw [readEntry, read]
  simp only [readMark_append]

theorem readEntry_headPieces (gaps : ∀ gap ∈ modifier, isGap gap = true)
    (canonical : key.Canonical) (optional : Bool) (after : List Piece) :
    readEntry (headPieces modifier key optional after) =
      (some ⟨⟨key.name, optional, trim (textOf (readValue after).1)⟩, after⟩,
        (readValue after).2.drop 1) :=
  readEntry_of_key
    (readModifiedKey?_append gaps canonical (by cases optional <;> rfl) (by cases optional <;> rfl))

theorem head?_headPieces_stops (canonical : key.Canonical) (optional : Bool)
    (after : List Piece) :
    (headPieces modifier key optional after).head?.all (fun piece => !piece.isSeparator) = true := by
  rw [headPieces]
  cases modifier with
  | none => exact WrittenKey.head?_append_stops canonical _
  | some gap => rfl

theorem readValue_following (canonical : written.Canonical) (after : List Piece) :
    readValue (written.following after) =
      (.code ' ' :: pieces written.value, .code written.separator :: after) := by
  have value : splitValue 0 none [' '] (pieces written.value ++ .code written.separator :: after) =
      (pieces written.value, .code written.separator :: after) :=
    have outside : Nesting.Tracked Nesting.outer.closers none := rfl
    Nesting.splitValue_of_returns canonical.value.2.2 outside (by decide) canonical.separator after
  have step : readValue (written.following after) =
      (.code ' ' :: (splitValue 0 none [' ']
        (pieces written.value ++ .code written.separator :: after)).1,
      (splitValue 0 none [' ']
        (pieces written.value ++ .code written.separator :: after)).2) := rfl
  rw [step, value]

/-- A member is read up to its separator. -/
theorem readEntry_entryPieces (canonical : written.Canonical) (after : List Piece) :
    readEntry (written.entryPieces after) =
      (some ⟨written.member, written.following after⟩, after) := by
  have value : trim (textOf (.code ' ' :: pieces written.value)) = written.value := by
    rw [textOf_cons, textOf_pieces]
    exact canonical.value.1
  rw [entryPieces_eq, readEntry_headPieces canonical.modifier canonical.key,
    readValue_following canonical, value]
  rfl

end Pieces

theorem entriesFrom_of_start {found start : List Piece} (filled : start ≠ [])
    (same : found.dropWhile Piece.isSeparator = start) :
    entriesFrom found = (readEntry start).1.toList ++ entriesFrom (readEntry start).2 := by
  rw [entriesFrom]
  split
  · rename_i nothing
    exact absurd (same.symm.trans nothing) filled
  · rename_i piece rest found
    rw [← found, same]

/-- The first member of a body is the one written first. -/
theorem members_text_append {written : WrittenMember} (canonical : written.Canonical)
    (rest : Text) : members (written.text ++ rest) = written.member :: members rest := by
  have filled : written.entryPieces (pieces rest) ≠ [] := by simp [entryPieces]
  have start : (pieces written.gap ++ written.entryPieces (pieces rest)).dropWhile
      Piece.isSeparator = written.entryPieces (pieces rest) :=
    dropSeparators_gap canonical.gap (head?_headPieces_stops canonical.key _ _)
  rw [members, entries, pieces_text_append canonical, entriesFrom_of_start filled start,
    readEntry_entryPieces canonical]
  rfl

/-- The members of a canonical body are those it was written from, in order. -/
theorem members_text (written : List WrittenMember)
    (canonical : ∀ member ∈ written, member.Canonical) :
    members (written.flatMap text) = written.map member := by
  induction written with
  | nil =>
    rw [List.flatMap_nil, members, entries, pieces, entriesFrom]
    rfl
  | cons first rest ih =>
    have later := ih fun member listed => canonical member (List.mem_cons_of_mem _ listed)
    rw [List.flatMap_cons, members_text_append (canonical first List.mem_cons_self), later,
      List.map_cons]

/-- Members whose values hold everything that ends a value elsewhere. -/
def nested : List WrittenMember :=
  [⟨"\n  /** a; b: \x7b */ // c: d,\n  ", none, .word "readonly", true,
      "\x7b a: string; b: [c, (d: \x7b e: ';' \x7d) => f] \x7d", ';'⟩,
    ⟨"", some "", .quoted '"' "x-trace: y", false, "Record<string,\n  Array<'>'>>", ','⟩,
    ⟨" ", some "/* ? */\n", .word "readonly", true, "(a: b, c?: d) => Promise<e> | /* , */ f", ';'⟩,
    ⟨"\t", none, .index "key: string; ", false, "'a;\\'b' | \x60c,\x60", ';'⟩,
    ⟨"\n", none, .word "200", false, "unknown", ','⟩]

def nestedMembers : List Member :=
  [⟨"readonly", true, "\x7b a: string; b: [c, (d: \x7b e: ';' \x7d) => f] \x7d"⟩,
    ⟨"x-trace: y", false, "Record<string,\n  Array<'>'>>"⟩,
    ⟨"readonly", true, "(a: b, c?: d) => Promise<e> | /* , */ f"⟩,
    ⟨"[key: string; ]", false, "'a;\\'b' | \x60c,\x60"⟩,
    ⟨"200", false, "unknown"⟩]

theorem members_text_nested :
    (∀ member ∈ nested, member.Canonical) ∧ members (nested.flatMap text) = nestedMembers := by
  have canonical : ∀ member ∈ nested, member.Canonical := by decide +kernel
  exact ⟨canonical, (members_text nested canonical).trans (by decide +kernel)⟩

end WrittenMember

end TypedClient
