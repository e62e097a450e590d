import TypedClient.Module.Group
import TypedClient.Proofs.Text.Lines

/-!
Modules without repeated group headers. Main statement: of the lines of a text exactly the headers
that repeat the header before them are left out, each with at most one blank line that nothing but
blank lines and such headers keep apart from it; and no more is left out when this is done again.
-/

namespace TypedClient.Module

open Text

/-- The header that stands nearest before what follows these lines. -/
def nearestHeader (lines : List Text) : Option Text := (lines.filter isGroupHeader).getLast?

/-- Whether the line at a position is a header that repeats the nearest one before it. -/
def repeatsAt (lines : List Text) (i : Nat) : Bool :=
  match lines[i]? with
  | some line => isGroupHeader line && nearestHeader (lines.take i) == some line
  | none => false

/-- Whether a line is neither a header nor blank. -/
def isContent (line : Text) : Bool := !isGroupHeader line && !allBlank line

/-- Whether there is a blank line at a position. -/
def BlankAt (lines : List Text) (i : Nat) : Prop := ∃ line, lines[i]? = some line ∧ allBlank line = true

/-- The header at a position repeats the one before it and may take a blank line with it. -/
structure Takes (lines : List Text) (header blank : Nat) : Prop where
  repeated : repeatsAt lines header = true
  earlier : blank < header
  isBlank : BlankAt lines blank
  between : ∀ i, blank < i → i < header → repeatsAt lines i = true ∨ BlankAt lines i

/-- The numbered lines that are left when repeated headers go and, of each pair of positions in
`taken`, the blank line at the second one. -/
def remaining (lines : List Text) (taken : List (Nat × Nat)) : List (Text × Nat) :=
  lines.zipIdx.filter fun entry => !repeatsAt lines entry.2 && entry.2 ∉ taken.map (·.2)

/-- What is left of lines when repeated headers go, each with at most one blank line. -/
structure Collapsed (before after : List Text) : Prop where
  apart : ∀ i, repeatsAt after i = false
  content : after.filter isContent = before.filter isContent
  headers : after.filter isGroupHeader = (before.zipIdx.filter fun entry =>
    isGroupHeader entry.1 && !repeatsAt before entry.2).map (·.1)
  blanks : ∃ taken : List (Nat × Nat), (taken.map (·.1)).Nodup ∧ (taken.map (·.2)).Nodup ∧
    (∀ pair ∈ taken, Takes before pair.1 pair.2) ∧ after = (remaining before taken).map (·.1)

section Positions

variable {front rest : List Text} {line : Text} {i : Nat}

theorem allBlank_of_isGroupHeader (header : isGroupHeader line = true) : allBlank line = false := by
  unfold isGroupHeader startsWith at header
  obtain ⟨rest, rfl⟩ := List.isPrefixOf_iff_prefix.mp (Bool.and_eq_true _ _ ▸ header).1
  rfl

theorem nearestHeader_concat (front : List Text) (line : Text) :
    nearestHeader (front ++ [line]) =
      if isGroupHeader line then some line else nearestHeader front := by
  unfold nearestHeader
  rw [List.filter_append, List.getLast?_append, List.filter_cons]
  split <;> rfl

theorem repeatsAt_append (inside : i < front.length) :
    repeatsAt (front ++ rest) i = repeatsAt front i := by
  unfold repeatsAt
  rw [List.getElem?_append_left inside, List.take_append_of_le_length (Nat.le_of_lt inside)]

theorem repeatsAt_length (front : List Text) (line : Text) :
    repeatsAt (front ++ [line]) front.length =
      (isGroupHeader line && nearestHeader front == some line) := by
  simp [repeatsAt]

theorem lt_of_repeatsAt (repeated : repeatsAt front i = true) : i < front.length := by
  apply Nat.lt_of_not_le
  intro outside
  rw [repeatsAt, List.getElem?_eq_none outside] at repeated
  contradiction

/-- No header of a list is repeated if none is in front of the last line, nor by that line. -/
theorem repeatsAt_concat (apart : ∀ i, repeatsAt front i = false)
    (new : (isGroupHeader line && nearestHeader front == some line) = false) (i : Nat) :
    repeatsAt (front ++ [line]) i = false := by
  apply Bool.eq_false_iff.mpr
  intro repeated
  have inside := lt_of_repeatsAt repeated
  rw [List.length_append, List.length_singleton, Nat.lt_succ_iff_lt_or_eq] at inside
  rcases inside with earlier | rfl
  · rw [repeatsAt_append earlier, apart] at repeated
    contradiction
  · rw [repeatsAt_length, new] at repeated
    contradiction

theorem repeatsAt_of_append (apart : ∀ i, repeatsAt (front ++ rest) i = false) (i : Nat) :
    repeatsAt front i = false := by
  apply Bool.eq_false_iff.mpr
  intro repeated
  have whole := apart i
  rw [repeatsAt_append (lt_of_repeatsAt repeated), repeated] at whole
  contradiction

theorem remaining_cons (lines : List Text) (header blank : Nat) (taken : List (Nat × Nat)) :
    remaining lines ((header, blank) :: taken) =
      (remaining lines taken).filter fun entry => entry.2 ≠ blank := by
  rw [remaining, remaining, List.filter_filter]
  apply List.filter_congr
  intro entry _
  rw [Bool.eq_iff_iff]
  simp [and_left_comm]

theorem BlankAt.append (blank : BlankAt front i) : BlankAt (front ++ rest) i := by
  obtain ⟨line, found, blank⟩ := blank
  obtain ⟨inside, _⟩ := List.getElem?_eq_some_iff.mp found
  exact ⟨line, by rw [List.getElem?_append_left inside, found], blank⟩

theorem Takes.append {header blank : Nat} (takes : Takes front header blank) :
    Takes (front ++ rest) header blank := by
  have inside := lt_of_repeatsAt takes.repeated
  refine ⟨by rw [repeatsAt_append inside, takes.repeated], takes.earlier, takes.isBlank.append, ?_⟩
  intro i behind before
  rw [repeatsAt_append (Nat.lt_trans before inside)]
  exact (takes.between i behind before).imp id BlankAt.append

end Positions

/-- How far lines have been gone through: which of the lines in `front` are kept, last first, and
which blank lines have gone with a header. -/
structure Progress (front : List Text) (latest : Option Text) (kept : List (Text × Nat))
    (taken : List (Nat × Nat)) : Prop where
  remains : kept.reverse = remaining front taken
  last : nearestHeader front = latest
  nearest : nearestHeader (kept.reverse.map (·.1)) = latest
  apart : ∀ i, repeatsAt (kept.reverse.map (·.1)) i = false
  takes : ∀ pair ∈ taken, Takes front pair.1 pair.2
  headers : (taken.map (·.1)).Nodup
  blanks : (taken.map (·.2)).Nodup

namespace Progress

variable {front rest : List Text} {latest : Option Text} {line : Text}
  {kept : List (Text × Nat)} {taken : List (Nat × Nat)}

theorem start : Progress [] none [] [] :=
  ⟨rfl, rfl, rfl, fun _ => rfl, (fun _ member => nomatch member), List.nodup_nil, List.nodup_nil⟩

theorem lt_length (progress : Progress front latest kept taken) :
    ∀ pair ∈ taken, pair.1 < front.length ∧ pair.2 < front.length := by
  intro pair member
  have takes := progress.takes pair member
  have inside := lt_of_repeatsAt takes.repeated
  exact ⟨inside, Nat.lt_trans takes.earlier inside⟩

/-- One more line does not change what is left of the lines in front of it. -/
theorem remaining_concat (progress : Progress front latest kept taken) (line : Text) :
    remaining (front ++ [line]) taken = remaining front taken ++
      if isGroupHeader line && nearestHeader front == some line then [] else [(line, front.length)] := by
  have unmarked : front.length ∉ taken.map (·.2) := by
    intro member
    obtain ⟨pair, listed, same⟩ := List.mem_map.mp member
    have inside := (progress.lt_length pair listed).2
    omega
  unfold remaining
  rw [List.zipIdx_append, List.filter_append]
  congr 1
  · apply List.filter_congr
    intro entry member
    obtain ⟨inside, _⟩ := List.getElem?_eq_some_iff.mp (List.mem_zipIdx_iff_getElem?.mp member)
    rw [repeatsAt_append inside]
  · rw [Nat.zero_add, List.zipIdx_singleton, List.filter_cons, repeatsAt_length]
    cases isGroupHeader line && nearestHeader front == some line <;> simp [unmarked]

/-- A line that repeats no header is kept. -/
theorem push (progress : Progress front latest kept taken)
    (new : (isGroupHeader line && latest == some line) = false) :
    Progress (front ++ [line]) (if isGroupHeader line then some line else latest)
      ((line, front.length) :: kept) taken := by
  have lines : ((line, front.length) :: kept).reverse.map (·.1) =
      kept.reverse.map (·.1) ++ [line] := by simp
  constructor
  case remains =>
    rw [progress.remaining_concat, progress.last, new, List.reverse_cons, progress.remains]
    rfl
  case last => rw [nearestHeader_concat, progress.last]
  case nearest => rw [lines, nearestHeader_concat, progress.nearest]
  case apart =>
    rw [lines]
    exact repeatsAt_concat progress.apart (by rw [progress.nearest, new])
  case takes => exact fun pair member => (progress.takes pair member).append
  case headers => exact progress.headers
  case blanks => exact progress.blanks

/-- A header that repeats the latest one is left out. -/
theorem skip (progress : Progress front (some line) kept taken) (header : isGroupHeader line = true) :
    Progress (front ++ [line]) (some line) kept taken := by
  constructor
  case remains =>
    rw [progress.remaining_concat, progress.last, header, beq_self_eq_true, progress.remains]
    exact (List.append_nil _).symm
  case last => rw [nearestHeader_concat, if_pos header]
  case nearest => exact progress.nearest
  case apart => exact progress.apart
  case takes => exact fun pair member => (progress.takes pair member).append
  case headers => exact progress.headers
  case blanks => exact progress.blanks

theorem ascending (progress : Progress front latest kept taken) :
    (kept.reverse.map (·.2)).Pairwise (· < ·) := by
  rw [progress.remains]
  have all : (front.zipIdx.map (·.2)).Pairwise (· < ·) := by
    rw [List.zipIdx_map_snd]
    exact List.pairwise_lt_range' 1
  exact all.sublist (List.filter_sublist.map _)

theorem lt_last {entry : Text × Nat} (progress : Progress front latest (entry :: kept) taken) :
    ∀ other ∈ kept.reverse, other.2 < entry.2 := by
  have ascending := progress.ascending
  rw [List.reverse_cons, List.map_append, List.pairwise_append] at ascending
  intro other member
  exact ascending.2.2 other.2 (List.mem_map_of_mem member) entry.2 List.mem_cons_self

theorem kept_of_mem {entry : Text × Nat} (progress : Progress front latest kept taken)
    (member : entry ∈ kept) : front[entry.2]? = some entry.1 ∧ entry.2 ∉ taken.map (·.2) := by
  have listed : entry ∈ remaining front taken := progress.remains ▸ List.mem_reverse.mpr member
  obtain ⟨inside, stays⟩ := List.mem_filter.mp listed
  rw [Bool.and_eq_true, decide_eq_true_eq] at stays
  exact ⟨List.mem_zipIdx_iff_getElem?.mp inside, stays.2⟩

/-- Between the last line kept and the end there are only repeated headers and blank lines. -/
theorem gone_behind {entry : Text × Nat} (progress : Progress front latest (entry :: kept) taken) :
    ∀ i, entry.2 < i → i < front.length → repeatsAt front i = true ∨ BlankAt front i := by
  intro i behind inside
  apply Classical.byContradiction
  intro stays
  rw [not_or] at stays
  have unmarked : i ∉ taken.map (·.2) := by
    intro member
    obtain ⟨pair, marked, rfl⟩ := List.mem_map.mp member
    exact stays.2 (progress.takes pair marked).isBlank
  have listed : (front[i], i) ∈ (entry :: kept).reverse := by
    rw [progress.remains, remaining, List.mem_filter, List.mem_zipIdx_iff_getElem?]
    exact ⟨List.getElem?_eq_getElem inside, by simp [stays.1, unmarked]⟩
  rw [List.reverse_cons, List.mem_append] at listed
  rcases listed with earlier | last
  · have before := progress.lt_last _ earlier
    omega
  · rw [← List.mem_singleton.mp last] at behind
    exact Nat.lt_irrefl i behind

/-- A repeated header takes the line before it with it if that is blank. -/
theorem take {entry : Text × Nat} (progress : Progress front (some line) (entry :: kept) taken)
    (header : isGroupHeader line = true) (blank : allBlank entry.1 = true) :
    Progress (front ++ [line]) (some line) kept ((front.length, entry.2) :: taken) := by
  have skipped := progress.skip header
  obtain ⟨found, unmarked⟩ := progress.kept_of_mem List.mem_cons_self
  obtain ⟨inside, _⟩ := List.getElem?_eq_some_iff.mp found
  have lines : (entry :: kept).reverse.map (·.1) = kept.reverse.map (·.1) ++ [entry.1] := by simp
  have other : isGroupHeader entry.1 = false := by
    apply Bool.eq_false_iff.mpr
    intro isHeader
    rw [allBlank_of_isGroupHeader isHeader] at blank
    contradiction
  constructor
  case remains =>
    have before : kept.reverse.filter (fun other => decide (other.2 ≠ entry.2)) = kept.reverse := by
      apply List.filter_eq_self.mpr
      intro other member
      exact decide_eq_true (Nat.ne_of_lt (progress.lt_last other member))
    rw [remaining_cons, ← skipped.remains, List.reverse_cons, List.filter_append, before]
    simp
  case last => exact skipped.last
  case nearest =>
    have nearest := progress.nearest
    rwa [lines, nearestHeader_concat, other, if_neg Bool.false_ne_true] at nearest
  case apart =>
    have apart := progress.apart
    rw [lines] at apart
    exact repeatsAt_of_append apart
  case takes =>
    intro pair member
    rcases List.mem_cons.mp member with rfl | earlier
    · refine ⟨?_, inside, BlankAt.append ⟨entry.1, found, blank⟩, ?_⟩
      · rw [repeatsAt_length, progress.last, header, beq_self_eq_true]
        rfl
      · intro i behind before
        rw [repeatsAt_append before]
        exact (progress.gone_behind i behind before).imp id BlankAt.append
    · exact skipped.takes pair earlier
  case headers =>
    refine List.nodup_cons.mpr ⟨?_, progress.headers⟩
    intro member
    obtain ⟨pair, listed, same⟩ := List.mem_map.mp member
    exact Nat.ne_of_lt (progress.lt_length pair listed).1 same
  case blanks => exact List.nodup_cons.mpr ⟨unmarked, progress.blanks⟩

/-- What `keepLines` does at a repeated header. -/
theorem drop (progress : Progress front (some line) kept taken)
    (header : isGroupHeader line = true) :
    ∃ kept' taken', dropBlank (kept.map (·.1)) = kept'.map (·.1) ∧
      Progress (front ++ [line]) (some line) kept' taken' := by
  cases kept with
  | nil => exact ⟨[], taken, rfl, progress.skip header⟩
  | cons entry kept =>
    rw [List.map_cons, dropBlank]
    by_cases blank : allBlank entry.1 = true
    · exact ⟨kept, _, if_pos blank, progress.take header blank⟩
    · exact ⟨entry :: kept, taken, if_neg blank, progress.skip header⟩

theorem keepLines (progress : Progress front latest kept taken) (rest : List Text) :
    ∃ latest' kept' taken', Module.keepLines latest (kept.map (·.1)) rest = kept'.map (·.1) ∧
      Progress (front ++ rest) latest' kept' taken' := by
  induction rest generalizing front latest kept taken with
  | nil => exact ⟨latest, kept, taken, rfl, by rwa [List.append_nil]⟩
  | cons line rest ih =>
    rw [List.append_cons, Module.keepLines]
    by_cases repeated : isGroupHeader line = true ∧ latest = some line
    · obtain ⟨header, rfl⟩ := repeated
      obtain ⟨kept', taken', dropped, next⟩ := progress.drop header
      rw [if_pos header, if_pos rfl, dropped]
      exact ih next
    · have new : (isGroupHeader line && latest == some line) = false := by
        simpa using repeated
      have pushed := ih (progress.push new)
      by_cases header : isGroupHeader line = true
      · rw [if_pos header, if_neg fun same => repeated ⟨header, same⟩]
        rwa [if_pos header] at pushed
      · rw [if_neg header]
        rwa [if_neg header] at pushed

end Progress

section Lines

variable {lines kept rest : List Text} {latest : Option Text} {line : Text}

/-- What of the remaining lines is in a class, for a class of lines that never go. -/
theorem filter_remaining {p : Text → Bool} {taken : List (Nat × Nat)} :
    ((remaining lines taken).map (·.1)).filter p = (lines.zipIdx.filter fun entry =>
      p entry.1 && (!repeatsAt lines entry.2 && entry.2 ∉ taken.map (·.2))).map (·.1) := by
  rw [List.filter_map, remaining, List.filter_filter]
  rfl

theorem filter_numbered (p : Text → Bool) (lines : List Text) :
    lines.filter p = (lines.zipIdx.filter fun entry => p entry.1).map (·.1) := by
  calc lines.filter p = (lines.zipIdx.map (·.1)).filter p := by rw [List.zipIdx_map_fst]
    _ = (lines.zipIdx.filter fun entry => p entry.1).map (·.1) := List.filter_map

theorem repeatsAt_of_mem {entry : Text × Nat} (member : entry ∈ lines.zipIdx)
    (other : isGroupHeader entry.1 = false) : repeatsAt lines entry.2 = false := by
  unfold repeatsAt
  rw [List.mem_zipIdx_iff_getElem?.mp member]
  simp [other]

theorem collapsed_keepLines (lines : List Text) :
    Collapsed lines (keepLines none [] lines).reverse := by
  obtain ⟨latest, kept, taken, result, progress⟩ := Progress.start.keepLines lines
  rw [List.nil_append] at progress
  have remains : (keepLines none [] lines).reverse = (remaining lines taken).map (·.1) := by
    rw [← progress.remains, List.map_reverse, ← result]
    rfl
  have unmarked : ∀ entry ∈ lines.zipIdx, allBlank entry.1 = false →
      entry.2 ∉ taken.map (·.2) := by
    intro entry member filled marked
    obtain ⟨pair, listed, same⟩ := List.mem_map.mp marked
    obtain ⟨line, found, blank⟩ := (progress.takes pair listed).isBlank
    rw [same, List.mem_zipIdx_iff_getElem?.mp member] at found
    rw [← Option.some.inj found, filled] at blank
    contradiction
  constructor
  case apart =>
    rw [remains, ← progress.remains]
    exact progress.apart
  case content =>
    rw [remains, filter_remaining, filter_numbered isContent lines]
    apply congrArg (List.map _)
    apply List.filter_congr
    intro entry member
    cases content : isContent entry.1 with
    | false => rfl
    | true =>
      rw [isContent, Bool.and_eq_true, Bool.not_eq_true', Bool.not_eq_true'] at content
      simp [repeatsAt_of_mem member content.1, unmarked entry member content.2]
  case headers =>
    rw [remains, filter_remaining]
    apply congrArg (List.map _)
    apply List.filter_congr
    intro entry member
    cases header : isGroupHeader entry.1 with
    | false => rfl
    | true => simp [unmarked entry member (allBlank_of_isGroupHeader header)]
  case blanks => exact ⟨taken, progress.headers, progress.blanks, progress.takes, remains⟩

theorem Collapsed.subset {before after : List Text} (collapsed : Collapsed before after) :
    after ⊆ before := by
  obtain ⟨taken, _, _, _, rfl⟩ := collapsed.blanks
  intro line member
  have numbered : (remaining before taken).map (·.1) ⊆ before.zipIdx.map (·.1) :=
    List.map_subset _ List.filter_sublist.subset
  rw [List.zipIdx_map_fst] at numbered
  exact numbered member

theorem keepLines_concat (other : isGroupHeader line = false) (lines : List Text) :
    keepLines latest kept (lines ++ [line]) = line :: keepLines latest kept lines := by
  induction lines generalizing latest kept with
  | nil => simp [keepLines, other]
  | cons first lines ih =>
    rw [List.cons_append, keepLines, keepLines]
    split
    · split
      · exact ih
      · exact ih
    · exact ih

/-- Where no header is repeated every line is kept. -/
theorem keepLines_of_apart (nearest : nearestHeader kept.reverse = latest)
    (apart : ∀ i, repeatsAt (kept.reverse ++ rest) i = false) :
    keepLines latest kept rest = rest.reverse ++ kept := by
  induction rest generalizing latest kept with
  | nil => rfl
  | cons line rest ih =>
    have whole : (line :: kept).reverse ++ rest = kept.reverse ++ line :: rest := by simp
    have new : (isGroupHeader line && latest == some line) = false := by
      have here := repeatsAt_of_append (whole ▸ apart) kept.reverse.length
      rwa [List.reverse_cons, repeatsAt_length, nearest] at here
    have next := @ih (line :: kept) (if isGroupHeader line then some line else latest)
      (by rw [List.reverse_cons, nearestHeader_concat, nearest]) (whole ▸ apart)
    rw [List.reverse_cons, List.append_assoc, List.singleton_append, ← next, keepLines]
    by_cases header : isGroupHeader line = true
    · have other : latest ≠ some line := by simpa [header] using new
      rw [if_pos header, if_neg other, if_pos header]
    · rw [if_neg header, if_neg header]

theorem repeatsAt_of_headless (headless : nearestHeader lines = none) (i : Nat) :
    repeatsAt lines i = false := by
  unfold nearestHeader at headless
  rw [List.getLast?_eq_none_iff, List.filter_eq_nil_iff] at headless
  unfold repeatsAt
  split
  · rename_i line found
    have other := headless line (List.mem_of_getElem? found)
    simp [other]
  · rfl

theorem keepLines_ne_nil (filled : lines ≠ []) : keepLines none [] lines ≠ [] := by
  intro none
  obtain ⟨latest, kept, taken, result, progress⟩ := Progress.start.keepLines lines
  rw [List.nil_append] at progress
  have gone : kept = [] := List.map_eq_nil_iff.mp (result.symm.trans none)
  have headless : nearestHeader lines = Option.none := by
    rw [progress.last, ← progress.nearest, gone]
    rfl
  have all : keepLines Option.none [] lines = lines.reverse ++ [] :=
    keepLines_of_apart rfl (repeatsAt_of_headless headless)
  rw [all, List.append_nil, List.reverse_eq_nil_iff] at none
  exact filled none

end Lines

section Texts

variable {text last : Text} {earlier : List Text}

theorem endsWith_concat (text : Text) (c : Char) :
    endsWith "\n" (text ++ [c]) = (c == '\n') := by
  have step : ['\n'].isPrefixOf? (c :: text.reverse) =
      if '\n' == c then some text.reverse else none := rfl
  have backwards : (text ++ [c]).reverse = c :: text.reverse := List.reverse_append
  have whole : ['\n'].isSuffixOf? (text ++ [c]) =
      (['\n'].isPrefixOf? (text ++ [c]).reverse).map List.reverse := rfl
  have comm : ('\n' == c) = (c == '\n') := Bool.beq_comm
  change (['\n'].isSuffixOf? (text ++ [c])).isSome = (c == '\n')
  rw [whole, backwards, step, Option.isSome_map, comm]
  split <;> simp_all

theorem endsWith_of_ended (parts : text.splitOn '\n' = earlier ++ [[]]) (broken : earlier ≠ []) :
    endsWith "\n" text = true := by
  have whole := join_splitOn text
  rw [parts, join_append broken (List.cons_ne_nil _ _), join_singleton, List.append_nil] at whole
  rw [← whole]
  exact endsWith_concat _ '\n'

theorem endsWith_of_open (parts : text.splitOn '\n' = earlier ++ [last]) (filled : last ≠ []) :
    endsWith "\n" text = false := by
  obtain ⟨before, c, rfl⟩ : ∃ before c, last = before ++ [c] :=
    ⟨_, _, (List.dropLast_concat_getLast filled).symm⟩
  have other : '\n' ∉ before ++ [c] :=
    not_mem_of_part (parts ▸ List.mem_append_right _ List.mem_cons_self)
  have written : ∃ front, text = front ++ [c] := by
    rw [← join_splitOn text, parts]
    by_cases none : earlier = []
    · exact ⟨before, by rw [none, List.nil_append, join_singleton]⟩
    · refine ⟨join "\n" earlier ++ "\n".toList ++ before, ?_⟩
      rw [join_append none (List.cons_ne_nil _ _), join_singleton, List.append_assoc _ before]
  obtain ⟨front, rfl⟩ := written
  rw [endsWith_concat, beq_eq_false_iff_ne]
  intro same
  exact other (same ▸ List.mem_append_right before List.mem_cons_self)

/-- Where there are no carriage returns, the parts between line feeds are gone through. -/
theorem collapseGroups_eq (free : '\r' ∉ text) :
    collapseGroups text = join "\n" (keepLines none [] (text.splitOn '\n')).reverse := by
  obtain ⟨earlier, last, parts⟩ : ∃ earlier last, text.splitOn '\n' = earlier ++ [last] :=
    ⟨_, _, (List.dropLast_concat_getLast (List.splitOn_ne_nil '\n' text)).symm⟩
  have read := lines_of_parts parts fun part member inside =>
    free (subset_of_part (parts ▸ List.mem_append_left _ member) inside)
  have plain : isGroupHeader [] = false := by decide
  unfold collapseGroups
  rw [read, parts]
  by_cases ended : last = []
  · subst ended
    rw [if_pos rfl, List.append_nil, keepLines_concat plain, List.reverse_cons]
    by_cases none : earlier = []
    · have whole := join_splitOn text
      rw [parts, none] at whole
      rw [none, ← whole]
      rfl
    · have kept : (keepLines Option.none [] earlier).reverse ≠ [] := by
        rw [ne_eq, List.reverse_eq_nil_iff]
        exact keepLines_ne_nil none
      rw [endsWith_of_ended parts none, join_append kept (List.cons_ne_nil _ _), join_singleton,
        List.append_nil]
      rfl
  · rw [if_neg ended, endsWith_of_open parts ended]
    exact List.append_nil _

theorem splitOn_collapseGroups (free : '\r' ∉ text) :
    (collapseGroups text).splitOn '\n' = (keepLines none [] (text.splitOn '\n')).reverse := by
  have filled : (keepLines none [] (text.splitOn '\n')).reverse ≠ [] := by
    rw [ne_eq, List.reverse_eq_nil_iff]
    exact keepLines_ne_nil (List.splitOn_ne_nil '\n' text)
  rw [collapseGroups_eq free]
  apply List.splitOn_intercalate '\n' _ filled
  intro line member
  exact not_mem_of_part ((collapsed_keepLines _).subset member)

/-- Repeated headers go, each with at most one blank line, and all else stays as it is. -/
theorem collapseGroups_collapsed (free : '\r' ∉ text) :
    collapseGroups (collapseGroups text) = collapseGroups text ∧
      Collapsed (text.splitOn '\n') ((collapseGroups text).splitOn '\n') := by
  have collapsed := collapsed_keepLines (text.splitOn '\n')
  rw [← splitOn_collapseGroups free] at collapsed
  refine ⟨?_, collapsed⟩
  have again : keepLines none [] ((collapseGroups text).splitOn '\n') =
      ((collapseGroups text).splitOn '\n').reverse ++ [] :=
    keepLines_of_apart rfl collapsed.apart
  have unreturned : '\r' ∉ collapseGroups text := by
    rw [← join_splitOn (collapseGroups text)]
    apply not_mem_join (by decide)
    intro line member inside
    exact free (subset_of_part (collapsed.subset member) inside)
  rw [collapseGroups_eq unreturned, again, List.append_nil, List.reverse_reverse]
  exact join_splitOn _

/-- A header that is repeated twice, once behind two blank lines and once at the end. -/
def teamLines : Text :=
  "// ==== teams ====\ntype A = 1;\n\n\n// ==== teams ====\n \n// ==== teams ====\ntype B = 2;\n" ++
    "// ==== users ====\n\n// ==== users ===="

theorem teamLines_collapsed :
    '\r' ∉ teamLines ∧
    collapseGroups teamLines =
      "// ==== teams ====\ntype A = 1;\n\ntype B = 2;\n// ==== users ====".toList ∧
    collapseGroups (collapseGroups teamLines) = collapseGroups teamLines ∧
    Collapsed (teamLines.splitOn '\n') ((collapseGroups teamLines).splitOn '\n') := by
  have free : '\r' ∉ teamLines := by decide
  exact ⟨free, by decide +kernel, collapseGroups_collapsed free⟩

end Texts

end TypedClient.Module
