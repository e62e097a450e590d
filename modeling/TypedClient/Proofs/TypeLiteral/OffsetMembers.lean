import TypedClient.Proofs.TypeLiteral.OffsetSteps

/-!
Members found by offsets. Main statement: on every text the reader by offsets comes to an end, none
of its cuts fails, and it finds the members of the body, whose values stand one behind another, each
at the start of a piece.
-/

namespace TypedClient

open Text Utf8

/-- An entry with the offset of its value in a body. -/
def Entry.located (body : Text) (entry : Entry) : Located := ⟨entry.member, entry.offset body⟩

section Entries

variable {body : Text} {angles : Nat} {pair : Option OpenPair} {before : Text} {piece : Piece}
  {found rest : List Piece} {entry : Entry}

/-- What ends a value is a character of code that ends what stands in front of it. -/
theorem exists_of_splitValue (left : (splitValue angles pair before found).2 = piece :: rest) :
    ∃ level c, piece = .code c ∧
      endsValue level ((textOf (splitValue angles pair before found).1).reverse ++ before) c rest =
        true := by
  induction found generalizing angles pair before with
  | nil => contradiction
  | cons first found ih =>
    cases first with
    | quoted span =>
      rw [splitValue_span _ _ _ span (.inl rfl)] at left ⊢
      simpa [Piece.text] using ih left
    | comment span =>
      rw [splitValue_span _ _ _ span (.inr rfl)] at left ⊢
      simpa [Piece.text] using ih left
    | code c =>
      cases pair with
      | some outer =>
        rw [splitValue_inside] at left ⊢
        simpa [Piece.text] using ih left
      | none =>
        rw [splitValue_outside] at left ⊢
        by_cases ends : endsValue angles before c found = true
        · rw [if_pos ends] at left ⊢
          cases left
          exact ⟨angles, c, rfl, ends⟩
        · rw [if_neg ends] at left ⊢
          simpa [Piece.text] using ih left

/-- A value is blank only where a separator or the body ends it. -/
theorem head?_of_blank_value (blank : allBlank (textOf (readValue found).1) = true) :
    (textOf (readValue found).2).head?.all (fun c => !isBlank c) = true := by
  cases left : (readValue found).2 with
  | nil => rfl
  | cons piece rest =>
    obtain ⟨level, c, rfl, ends⟩ := exists_of_splitValue left
    have none : (textOf (readValue found).1).reverse.dropWhile isBlank = [] := by
      rw [List.dropWhile_eq_nil_iff]
      simpa [allBlank] using blank
    have goesOn : endsLine (textOf (readValue found).1).reverse rest = false := by
      rw [endsLine, none]
    rw [List.append_nil] at ends
    change endsValue level (textOf (readValue found).1).reverse c rest = true at ends
    simp only [endsValue, goesOn, Bool.and_false, Bool.or_false, Bool.and_eq_true,
      Bool.or_eq_true, beq_iff_eq] at ends
    rcases ends.2 with rfl | rfl <;> rfl

/-- Blanks in front of a value do not reach past its end. -/
theorem trimStart_readValue (found : List Piece) :
    trimStart (textOf found) =
      trimStart (textOf (readValue found).1) ++ textOf (readValue found).2 := by
  have whole : textOf found = textOf (readValue found).1 ++ textOf (readValue found).2 := by
    rw [← textOf_append, readValue, splitValue_append]
  rw [whole, trimStart, List.dropWhile_append]
  split
  · rename_i none
    have blank : allBlank (textOf (readValue found).1) = true := by
      rw [List.isEmpty_iff, List.dropWhile_eq_nil_iff] at none
      exact List.all_eq_true.mpr none
    have empty := List.isEmpty_iff.mp none
    have kept := dropWhile_append_of_stop [] rfl (head?_of_blank_value blank)
    rw [List.nil_append] at kept
    rw [trimStart, empty, List.nil_append, kept]
  · rfl

theorem passOver_eq (isRest : IsRest body found) :
    passOver body (restOffset body found) =
      .ok (none, restOffset body (readValue found).2 + 1) := by
  rw [passOver, valueEnd_eq isRest]
  rfl

theorem valueAt_eq (isRest : IsRest body found) (name : Text) (optional : Bool) :
    valueAt body name optional (restOffset body found) =
      .ok (some (Entry.located body ⟨⟨name, optional, trim (textOf (readValue found).1)⟩, found⟩),
        restOffset body (readValue found).2 + 1) := by
  have whole : (readValue found).1 ++ (readValue found).2 = found :=
    splitValue_append 0 none [] found
  have cut := (whole.symm ▸ isRest).cutOut
  rw [whole] at cut
  have start : restOffset body found + size ((textOf (readValue found).1).takeWhile isBlank) =
      body.size - (trimStart (textOf found)).size := by
    have parts := congrArg size
      (List.takeWhile_append_dropWhile (p := isBlank) (l := textOf (readValue found).1))
    have sizes := congrArg (fun found => (textOf found).size) whole
    obtain ⟨lead, rfl, same⟩ := isRest.exists_lead
    rw [size_append] at parts
    rw [textOf_append, size_append] at sizes
    rw [same, trimStart_readValue, trimStart, size_append, size_append]
    omega
  rw [valueAt, valueEnd_eq isRest]
  change (cutOut body (restOffset body found) (restOffset body (readValue found).2) >>= _) = _
  rw [cut, Entry.located, Entry.offset, ← start]
  rfl

theorem memberAt_eq (isRest : IsRest body found) :
    memberAt body (restOffset body found) =
      .ok ((readEntry found).1.map (Entry.located body), restOffset body (entryEnd found) + 1) := by
  rw [memberAt, modifiedKeyAt_eq isRest, readEntry, entryEnd]
  cases read : readModifiedKey? found with
  | none => exact passOver_eq isRest
  | some key =>
    obtain ⟨name, after⟩ := key
    have behind := isRest.of_suffix (readModifiedKey?_suffix read)
    have marked := behind.of_suffix (readMark_suffix after)
    have colon := marked.byteIs_iff_head? ':' (by decide) (by decide)
    change (if byteIs body (markAt body (restOffset body after)).2 ':' = true then _ else _) = _
    rw [markAt_eq behind]
    dsimp only
    generalize readMark after = pair at marked colon ⊢
    obtain ⟨optional, left⟩ := pair
    by_cases is : byteIs body (restOffset body left) ':' = true
    · obtain ⟨rest, rfl⟩ := List.head?_eq_some_iff.mp (colon.mp is)
      have one : restOffset body (.code ':' :: rest) + 1 = restOffset body rest :=
        marked.restOffset_cons.symm
      rw [if_pos is, one]
      exact valueAt_eq marked.of_cons name optional
    · rw [if_neg is, passOver_eq marked]
      cases left with
      | nil => rfl
      | cons piece rest =>
        have other : piece ≠ .code ':' := fun same => is (colon.mpr (congrArg some same))
        simp [other]

/-- What ends a member is a single byte. -/
theorem restOffset_entryEnd (isRest : IsRest body found) (left : entryEnd found = piece :: rest) :
    restOffset body rest = restOffset body (piece :: rest) + 1 := by
  obtain ⟨value, ⟨front, whole, _⟩, same⟩ := Standing.exists_value found
  rw [same] at left
  obtain ⟨level, c, rfl, ends⟩ := exists_of_splitValue left
  have one : c.utf8Size = 1 := by
    rcases (ends_of_endsValue ends).2 with rfl | rfl | rfl <;> rfl
  have behind : IsRest body value := isRest.of_suffix ⟨front, whole.symm⟩
  have after := behind.of_suffix (left ▸ readValue_suffix value)
  rw [after.restOffset_cons, Piece.text, size_cons, one, size_nil]

theorem locatedFrom_of_le {here : Nat} (past : body.size ≤ here) :
    locatedFrom body here = .ok [] := by
  rw [locatedFrom, dif_neg (Nat.not_lt.mpr past)]

theorem locatedFrom_of_none {here : Nat} (round : roundAt body here = .ok none) :
    locatedFrom body here = .ok [] := by
  rw [locatedFrom]
  split
  · split <;> rename_i same <;> rw [round] at same <;> cases same
  · rfl

theorem locatedFrom_of_some {here next : Nat} {one : Option Located} (inside : here < body.size)
    (round : roundAt body here = .ok (some (one, next))) :
    locatedFrom body here = (locatedFrom body next).map (one.toList ++ ·) := by
  rw [locatedFrom, dif_pos inside]
  split <;> rename_i same <;> rw [round] at same <;> cases same
  rfl

/-- A round reads the entry behind the separators. -/
theorem roundAt_eq (isRest : IsRest body found) :
    roundAt body (restOffset body found) =
      if found.dropWhile Piece.isSeparator = [] then .ok none
      else .ok (some ((readEntry (found.dropWhile Piece.isSeparator)).1.map (Entry.located body),
        restOffset body (entryEnd (found.dropWhile Piece.isSeparator)) + 1)) := by
  have left := isRest.of_suffix (List.dropWhile_suffix Piece.isSeparator)
  rw [roundAt, separatorsEnd_eq isRest]
  cases start : found.dropWhile Piece.isSeparator with
  | nil => rw [restOffset_nil, if_neg (Nat.lt_irrefl _), if_pos rfl]
  | cons piece rest =>
    rw [start] at left
    rw [if_pos left.restOffset_lt, if_neg (List.cons_ne_nil piece rest), memberAt_eq left]
    rfl

/-- Round by round, the reader by offsets finds the entries. -/
theorem locatedFrom_eq (isRest : IsRest body found) :
    locatedFrom body (restOffset body found) =
      .ok ((entriesFrom found).map (Entry.located body)) := by
  fun_induction entriesFrom found with
  | case1 found empty =>
    exact locatedFrom_of_none (by rw [roundAt_eq isRest, if_pos empty])
  | case2 found piece rest start ih =>
    have round := roundAt_eq isRest
    rw [start, if_neg (List.cons_ne_nil piece rest)] at round
    have left : IsRest body (piece :: rest) :=
      isRest.of_suffix (start ▸ List.dropWhile_suffix Piece.isSeparator)
    have inside : restOffset body found < body.size := by
      have within : restOffset body found ≤ separatorsEnd body (restOffset body found) :=
        (separatorsEnd_bounds (Nat.sub_le _ _)).1
      rw [separatorsEnd_eq isRest, start] at within
      exact Nat.lt_of_le_of_lt within left.restOffset_lt
    have later : locatedFrom body (restOffset body (entryEnd (piece :: rest)) + 1) =
        .ok ((entriesFrom (readEntry (piece :: rest)).2).map (Entry.located body)) := by
      have after := ih (left.of_suffix (readEntry_suffix (piece :: rest)).1)
      rw [readEntry_eq_drop] at after ⊢
      cases ended : entryEnd (piece :: rest) with
      | nil =>
        rw [restOffset_nil, locatedFrom_of_le (Nat.le_add_right _ 1), List.drop_nil,
          entriesFrom_of_empty rfl]
        rfl
      | cons mark more =>
        rw [ended] at after
        rw [← restOffset_entryEnd left ended]
        exact after
    rw [locatedFrom_of_some inside round, later]
    cases (readEntry (piece :: rest)).1 <;> simp [Except.map]

end Entries

section Order

variable {body : Text} {found : List Piece} {entry : Entry}

/-- No value stands in front of where the reader starts. -/
theorem restOffset_le_offset (member : entry ∈ entriesFrom found) :
    restOffset body found ≤ entry.offset body := by
  have following := textOf_suffix (readFrom_of_mem_entriesFrom member).following
  exact Nat.sub_le_sub_left (size_le_of_suffix ((trimStart_suffix _).trans following)) body.size

/-- A member has a key, and its value follows the colon behind the key. -/
theorem exists_of_mem_readEntry (member : entry ∈ (readEntry found).1) :
    ∃ name after optional, readModifiedKey? found = some (name, after) ∧
      readMark after = (optional, .code ':' :: entry.following) := by
  unfold readEntry at member
  split at member
  · cases member
  · rename_i name after read
    split at member
    · rename_i optional rest marked
      cases member
      exact ⟨name, after, optional, read, marked⟩
    · cases member

theorem entryEnd_of_mem (member : entry ∈ (readEntry found).1) :
    entryEnd found = (readValue entry.following).2 := by
  obtain ⟨name, after, optional, read, marked⟩ := exists_of_mem_readEntry member
  rw [entryEnd, read]
  dsimp only
  rw [marked]
  rfl

/-- A value stands in front of what ends its member. -/
theorem offset_add_size_le (isRest : IsRest body found) (member : entry ∈ (readEntry found).1) :
    entry.offset body + entry.member.value.size ≤ restOffset body (entryEnd found) := by
  have read := (readEntry_suffix found).2 entry member
  have trimmed : (trim (textOf (readValue entry.following).1)).size ≤
      (trimStart (textOf (readValue entry.following).1)).size := by
    obtain ⟨blanks, whole⟩ := trimEnd_opens (trimStart (textOf (readValue entry.following).1))
    have sizes := congrArg size whole
    rw [size_append] at sizes
    rw [trim]
    omega
  have within := size_le_of_suffix
    ((trimStart_suffix _).trans (isRest.of_suffix read.following).suffix)
  rw [trimStart_readValue, size_append] at within
  rw [Entry.offset, trimStart_readValue, size_append, entryEnd_of_mem member, restOffset,
    read.value]
  omega

/-- The values of entries stand one behind another, with what ends a member in between. -/
theorem pairwise_offsets (isRest : IsRest body found) :
    (entriesFrom found).Pairwise fun one other =>
      one.offset body + one.member.value.size < other.offset body := by
  fun_induction entriesFrom found with
  | case1 => exact .nil
  | case2 found piece rest start ih =>
    have left : IsRest body (piece :: rest) :=
      isRest.of_suffix (start ▸ List.dropWhile_suffix Piece.isSeparator)
    refine List.pairwise_append.mpr
      ⟨?_, ih (left.of_suffix (readEntry_suffix (piece :: rest)).1), ?_⟩
    · cases (readEntry (piece :: rest)).1 with
      | none => exact .nil
      | some entry => exact List.pairwise_singleton _ _
    · intro one first other later
      have before := offset_add_size_le left (Option.mem_toList.mp first)
      rw [readEntry_eq_drop] at later
      cases ended : entryEnd (piece :: rest) with
      | nil =>
        rw [ended, List.drop_nil, entriesFrom_of_empty rfl] at later
        contradiction
      | cons mark more =>
        rw [ended] at before later
        rw [List.drop_succ_cons, List.drop_zero] at later
        have behind : restOffset body more ≤ other.offset body := restOffset_le_offset later
        rw [restOffset_entryEnd left ended] at behind
        omega

/-- Blanks in front of a text are pieces of code. -/
theorem exists_trimStart_pieces (aligned : Aligned found) :
    ∃ left, left <:+ found ∧ trimStart (textOf found) = textOf left := by
  induction found with
  | nil => exact ⟨[], List.suffix_refl [], rfl⟩
  | cons piece rest ih =>
    have stops {c : Char} {tail : Text} (starts : piece.text = c :: tail)
        (solid : isBlank c = false) : ∃ left, left <:+ piece :: rest ∧
          trimStart (textOf (piece :: rest)) = textOf left := by
      refine ⟨piece :: rest, List.suffix_refl _, ?_⟩
      rw [textOf_cons, starts, List.cons_append, trimStart,
        List.dropWhile_cons_of_neg (by simp [solid])]
    cases piece with
    | code c =>
      cases blank : isBlank c with
      | false => exact stops rfl blank
      | true =>
        obtain ⟨left, ending, same⟩ := ih aligned.2
        refine ⟨left, ending.trans (List.suffix_cons _ _), ?_⟩
        rw [textOf_cons, Piece.text, List.singleton_append, trimStart,
          List.dropWhile_cons_of_pos blank]
        exact same
    | quoted span =>
      obtain ⟨quote, tail, rfl, mark⟩ := aligned.1.starts_quoted
      refine stops rfl ?_
      simp only [Piece.isQuote, Bool.or_eq_true, beq_iff_eq] at mark
      rcases mark with (rfl | rfl) | rfl <;> rfl
    | comment span =>
      obtain ⟨tail, rfl⟩ := List.head?_eq_some_iff.mp aligned.1.comment
      exact stops rfl rfl

theorem exists_start_inBytes (placed : Placed) :
    ∃ piece ∈ placed.inBytes, piece.start = placed.start := by
  obtain ⟨piece, start, stop⟩ := placed
  cases piece with
  | code c =>
    have filled := c.utf8Size_pos
    exact ⟨.code start, List.mem_map_of_mem (List.mem_range'.mpr ⟨0, filled, rfl⟩), rfl⟩
  | quoted span => exact ⟨.quoted start stop, List.mem_singleton_self _, rfl⟩
  | comment span => exact ⟨.comment start stop, List.mem_singleton_self _, rfl⟩

/-- Where a piece of the body starts, one starts in bytes. -/
theorem exists_start_of_suffix {piece : Piece} {rest : List Piece}
    (ending : piece :: rest <:+ pieces body) :
    ∃ one ∈ bytePieces body 0, one.start = restOffset body (piece :: rest) := by
  obtain ⟨front, whole⟩ := ending
  have moved := (whole.symm ▸ isRest_pieces body : IsRest body (front ++ piece :: rest))
    |>.restOffset_append
  rw [whole, restOffset_pieces] at moved
  obtain ⟨one, inside, start⟩ := exists_start_inBytes
    ⟨piece, 0 + (textOf front).size, 0 + (textOf front).size + piece.text.size⟩
  refine ⟨one, ?_, start.trans moved.symm⟩
  rw [bytePieces_zero, ← whole, placeFrom_append, placeFrom, List.flatMap_append, List.flatMap_cons]
  exact List.mem_append_right _ (List.mem_append_left _ inside)

/-- A value that is not empty starts where a piece does. -/
theorem exists_start_of_value (member : entry ∈ entries body) (filled : entry.member.value ≠ []) :
    ∃ piece ∈ bytePieces body 0, piece.start = entry.offset body := by
  have read := readFrom_of_mem_entriesFrom member
  obtain ⟨left, ending, same⟩ :=
    exists_trimStart_pieces ((isRest_pieces body).of_suffix read.following).aligned
  cases left with
  | nil =>
    rw [trimStart_readValue, textOf_nil, List.append_eq_nil_iff] at same
    rw [read.value, trim, same.1] at filled
    exact absurd rfl filled
  | cons piece rest =>
    obtain ⟨one, listed, start⟩ := exists_start_of_suffix (ending.trans read.following)
    refine ⟨one, listed, ?_⟩
    rw [start, Entry.offset, same, restOffset]

end Order

/-- The reader of members is total and safe on every text. Every round leads on; a value ends within
the body and not before it starts; from a boundary on no cut fails; and the members found have
values that stand one behind another. -/
theorem members_by_offsets (body : Text) :
    (∀ here found next, here ≤ body.size → roundAt body here = .ok (some (found, next)) →
        here < next) ∧
      (∀ start stop, start ≤ body.size → valueEnd body start = .ok stop →
        start ≤ stop ∧ stop ≤ body.size) ∧
      (∀ start, IsBoundary body start → (∃ round, roundAt body start = .ok round) ∧
        (∃ key, keyAt body start = .ok key) ∧ ∃ stop, valueEnd body start = .ok stop) ∧
      ∃ found, locatedFrom body 0 = .ok found ∧ found.map (·.member) = members body ∧
        found.Pairwise (fun one other => one.start + one.member.value.size < other.start) ∧
        ∀ one ∈ found, StandsAt one.start one.member.value body ∧
          (one.member.value ≠ [] → ∃ piece ∈ bytePieces body 0, piece.start = one.start) := by
  refine ⟨fun _ _ _ within round => (roundAt_onward within round).1,
    fun _ _ => valueEnd_bounds, fun start boundary => ?_, ?_⟩
  · obtain ⟨found, isRest, rfl⟩ := exists_rest boundary
    refine ⟨?_, ⟨_, keyAt_eq isRest⟩, _, valueEnd_eq isRest⟩
    rw [roundAt_eq isRest]
    split <;> exact ⟨_, rfl⟩
  · have run := locatedFrom_eq (isRest_pieces body)
    rw [restOffset_pieces] at run
    refine ⟨(entries body).map (Entry.located body), run, ?_, ?_, ?_⟩
    · rw [List.map_map, members]
      rfl
    · exact List.pairwise_map.mpr (pairwise_offsets (isRest_pieces body))
    · rintro one listed
      obtain ⟨entry, member, rfl⟩ := List.mem_map.mp listed
      exact ⟨Entry.value_standsAt member, exists_start_of_value member⟩

/-- Stray brackets, a key without a colon, characters of several bytes, a string with a separator in
it, an empty value and a bracket that is never closed. -/
def brokenBody : Text := ") é; a: ];\n\"ü\": \"ö;\" \n b: , c: \x7b[x], d"

def brokenMembers : List Member :=
  [⟨"a", false, "]"⟩, ⟨"ü", false, "\"ö;\""⟩, ⟨"b", false, []⟩, ⟨"c", false, "\x7b[x], d"⟩]

theorem members_by_offsets_broken :
    (∃ stop, valueEnd brokenBody 0 = .ok stop ∧ stop ≤ brokenBody.size) ∧
      ∃ found, locatedFrom brokenBody 0 = .ok found ∧ found.map (·.member) = brokenMembers ∧
        found.Pairwise fun one other => one.start + one.member.value.size < other.start := by
  obtain ⟨_, bounds, safe, found, run, same, apart, _⟩ := members_by_offsets brokenBody
  obtain ⟨_, _, stop, ended⟩ := safe 0 (.zero brokenBody)
  have listed : members brokenBody = brokenMembers := by decide +kernel
  exact ⟨⟨stop, ended, (bounds 0 stop (Nat.zero_le _) ended).2⟩, found, run, same.trans listed,
    apart⟩

end TypedClient
