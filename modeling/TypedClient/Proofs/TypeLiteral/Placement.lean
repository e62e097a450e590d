import TypedClient.Proofs.Text.Stretch
import TypedClient.Proofs.Text.Trim
import TypedClient.TypeLiteral.Member

/-!
Where the members of a type literal stand. Main statement: the value of every entry, and the
inside of a value that is an object literal, stand in the body at the offsets noted for them.
-/

namespace TypedClient

open Text

theorem textOf_suffix {found rest : List Piece} (ending : rest <:+ found) :
    textOf rest <:+ textOf found := by
  obtain ⟨before, rfl⟩ := ending
  exact ⟨textOf before, (textOf_append before rest).symm⟩

theorem skipTrivia_suffix (found : List Piece) : skipTrivia found <:+ found :=
  List.dropWhile_suffix Piece.isTrivia

theorem readKey?_suffix {found after : List Piece} {name : Text}
    (read : readKey? found = some (name, after)) : after <:+ found := by
  unfold readKey? at read
  split at read
  · split at read
    · simp at read
    · obtain ⟨_, _, same⟩ := Option.map_eq_some_iff.mp read
      cases same
      exact List.suffix_cons _ _
  · split at read
    · split at read
      · rename_i split
        cases read
        rw [splitClose_append split]
        exact ((List.suffix_cons _ _).trans (List.suffix_append _ _)).trans (List.suffix_cons _ _)
      · simp at read
    · split at read
      · cases read
        exact (List.dropWhile_suffix _).trans (List.suffix_cons _ _)
      · simp at read
  · simp at read

theorem readModifiedKey?_suffix {found after : List Piece} {name : Text}
    (read : readModifiedKey? found = some (name, after)) : after <:+ found := by
  unfold readModifiedKey? at read
  split at read
  · simp at read
  · rename_i name' after' first
    have outer := readKey?_suffix first
    split at read
    · cases second : readKey? (skipTrivia after') with
      | none =>
        rw [second] at read
        cases read
        exact outer
      | some pair =>
        rw [second] at read
        cases read
        exact ((readKey?_suffix second).trans (skipTrivia_suffix after')).trans outer
    · cases read
      exact outer

theorem readMark_suffix (found : List Piece) : (readMark found).2 <:+ found := by
  have first := skipTrivia_suffix found
  unfold readMark
  split
  · rename_i rest eq
    rw [eq] at first
    exact ((skipTrivia_suffix rest).trans (List.suffix_cons _ _)).trans first
  · exact first

theorem readValue_suffix (found : List Piece) : (readValue found).2 <:+ found :=
  ⟨(readValue found).1, splitValue_append 0 none [] found⟩

/-- The entry was read off a later part of these pieces. -/
structure Entry.ReadFrom (found : List Piece) (entry : Entry) : Prop where
  following : entry.following <:+ found
  value : entry.member.value = trim (textOf (readValue entry.following).1)

theorem Entry.ReadFrom.of_suffix {found rest : List Piece} {entry : Entry}
    (read : entry.ReadFrom rest) (ending : rest <:+ found) : entry.ReadFrom found :=
  ⟨read.following.trans ending, read.value⟩

theorem readEntry_suffix (found : List Piece) :
    (readEntry found).2 <:+ found ∧ ∀ entry ∈ (readEntry found).1, entry.ReadFrom found := by
  unfold readEntry
  split
  · exact ⟨(List.drop_suffix _ _).trans (readValue_suffix found), by simp⟩
  · rename_i name after read
    have key := readModifiedKey?_suffix read
    have mark := (readMark_suffix after).trans key
    split
    · rename_i rest eq
      rw [eq] at mark
      have inside : rest <:+ found := (List.suffix_cons _ _).trans mark
      refine ⟨(List.drop_suffix _ _).trans ((readValue_suffix rest).trans inside), ?_⟩
      intro entry same
      cases same
      exact ⟨inside, rfl⟩
    · rename_i other _ eq
      rw [eq] at mark
      exact ⟨(List.drop_suffix _ _).trans ((readValue_suffix other).trans mark), by simp⟩

theorem readFrom_of_mem_entriesFrom {found : List Piece} {entry : Entry}
    (member : entry ∈ entriesFrom found) : entry.ReadFrom found := by
  fun_induction entriesFrom found with
  | case1 => simp at member
  | case2 found piece rest start ih =>
    have ending : piece :: rest <:+ found := start ▸ List.dropWhile_suffix Piece.isSeparator
    obtain ⟨left, first⟩ := readEntry_suffix (piece :: rest)
    rcases List.mem_append.mp member with here | later
    · exact (first entry (by simpa using here)).of_suffix ending
    · exact (ih later).of_suffix (left.trans ending)

namespace Entry

variable {body : Text} {entry : Entry}

theorem value_standsAt (member : entry ∈ entries body) :
    StandsAt (entry.offset body) entry.member.value body := by
  have read := readFrom_of_mem_entriesFrom member
  have whole : textOf entry.following =
      textOf (readValue entry.following).1 ++ textOf (readValue entry.following).2 := by
    rw [← textOf_append, readValue, splitValue_append]
  obtain ⟨after, opens⟩ := trim_opens (textOf (readValue entry.following).1)
    (textOf (readValue entry.following).2)
  rw [← whole, ← read.value] at opens
  have ending : textOf entry.following <:+ body := by
    simpa only [textOf_pieces] using textOf_suffix read.following
  exact .of_suffix opens ((trimStart_suffix _).trans ending)

theorem block_standsAt (member : entry ∈ entries body) {inside : Text}
    (literal : entry.member.block? = some inside) :
    StandsAt (entry.offset body + 1) inside body := by
  have bare : trimStart entry.member.value = entry.member.value := by
    rw [(readFrom_of_mem_entriesFrom member).value, trimStart_trim]
  refine (value_standsAt member).trans ?_
  unfold Member.block? braced? at literal
  rw [bare] at literal
  split at literal
  · rename_i rest opens
    split at literal
    · rename_i inner after closes
      have whole : rest = textOf inner ++ '}' :: textOf after := by
        rw [← textOf_pieces rest, splitClose_append closes]
        simp [Piece.text]
      split at literal
      · cases literal
        exact ⟨['{'], '}' :: textOf after, by rw [opens, whole]; simp, by decide⟩
      · simp at literal
    · simp at literal
  · simp at literal

end Entry

end TypedClient
