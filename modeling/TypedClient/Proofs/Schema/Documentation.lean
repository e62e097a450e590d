import TypedClient.Proofs.TypeLiteral.Cut
import TypedClient.Schema.Basic

/-!
Schemas with documentation. Main statement: a comment behind the semicolon of a member, or in front
of all members, makes no difference to the properties of a schema, whatever it says.
-/

namespace TypedClient

open Text

section Comments

/-- A comment as it is written: a block with the first end mark in it, or a line with its line
feed. -/
def IsComment (text : Text) : Prop :=
  (∃ inside, ¬ "*/".toList <:+: inside ∧ text = '/' :: '*' :: inside ++ ['*', '/']) ∨
    ∃ inside, '\n' ∉ inside ∧ text = '/' :: '/' :: inside ++ ['\n']

theorem endsBlock_of_free {inside : Text} (free : ¬ "*/".toList <:+: inside) :
    Piece.endsBlock (inside ++ ['*', '/']) = true := by
  induction inside with
  | nil => rfl
  | cons c inside ih =>
    rw [List.cons_append, Piece.endsBlock]
    · exact ih fun marked => free (marked.trans (List.suffix_cons c inside).isInfix)
    · rintro rest rfl slash
      cases inside with
      | nil => simp at slash
      | cons d inside =>
        cases slash
        exact free ⟨[], inside, rfl⟩

/-- A comment is scanned by itself, and leaves nothing behind but a blank. -/
theorem IsComment.exists_pieces {text : Text} (isComment : IsComment text) :
    ∃ remark, textOf remark = text ∧ (∀ back, Aligned back → Aligned (remark ++ back)) ∧
      ∀ piece ∈ withoutComments remark, piece.isSeparator = true := by
  rcases isComment with ⟨inside, free, rfl⟩ | ⟨inside, free, rfl⟩
  · refine ⟨[.comment ('/' :: '*' :: (inside ++ ['*', '/']))], by simp [Piece.text],
      fun back aligned => ⟨Piece.endsBefore_block (endsBlock_of_free free) _, aligned⟩, ?_⟩
    intro piece member
    obtain rfl : piece = .code ' ' := List.mem_singleton.mp member
    rfl
  · have line : inside.all Piece.inLine = true := all_ne_iff.mpr free
    have ends (next : Option Char) : (Piece.code '\n').EndsBefore next :=
      Piece.endsBefore_code rfl fun slash => absurd slash (by decide)
    refine ⟨[.comment ('/' :: '/' :: inside), .code '\n'], by simp [Piece.text],
      fun back aligned => ⟨Piece.endsBefore_line line rfl, ends _, aligned⟩, ?_⟩
    intro piece member
    obtain rfl : piece = .code '\n' := List.mem_singleton.mp member
    rfl

end Comments

section Ends

/-- Reading entries off pieces as `entriesFrom` does, one of them, be it a member or passed over, ends
at the semicolon in front of `after`. -/
inductive EndsEntry : List Piece → List Piece → Prop
  | first {found after : List Piece}
      (ends : entryEnd (found.dropWhile Piece.isSeparator) = .code ';' :: after) :
      EndsEntry found after
  | later {found after : List Piece}
      (ends : EndsEntry (readEntry (found.dropWhile Piece.isSeparator)).2 after) :
      EndsEntry found after

variable {found after : List Piece}

/-- A semicolon that ends an entry stands outside all brackets. -/
theorem EndsEntry.outside (ends : EndsEntry found after) (aligned : Aligned found) :
    ∃ front, found = front ++ .code ';' :: after ∧ (Standing.outer.behind front).Outside := by
  induction ends with
  | @first found after ends =>
    have start := Standing.leads_dropSeparators found
    obtain ⟨read, whole, outside, _⟩ := Standing.outside_of_entryEnd (start.aligned aligned) ends
    rw [whole] at start
    obtain ⟨front, same, back⟩ := start
    refine ⟨front ++ read, by rw [same, List.append_assoc], ?_⟩
    rw [Standing.behind_append, back]
    exact outside
  | @later found after ends ih =>
    have start := Standing.leads_dropSeparators found
    cases left : entryEnd (found.dropWhile Piece.isSeparator) with
    | nil =>
      rw [readEntry_eq_drop, left] at ih
      obtain ⟨front, none, _⟩ := ih trivial
      simp at none
    | cons piece rest =>
      have behind := start.trans (Standing.leads_of_entryEnd (start.aligned aligned) left)
      rw [readEntry_eq_drop, left] at ih
      obtain ⟨read, rfl, outside⟩ := ih (behind.aligned aligned)
      obtain ⟨front, same, back⟩ := behind
      refine ⟨front ++ read, by rw [same, List.append_assoc], ?_⟩
      rw [Standing.behind_append, back]
      exact outside

/-- Whether `before` ends right behind a semicolon that ends an entry of the body
`before ++ after`, be the body read as it stands or without its comments. -/
def EndsMember (before after : Text) : Prop :=
  ∃ front back, pieces (before ++ after) = front ++ .code ';' :: back ∧ textOf back = after ∧
    (EndsEntry (pieces (before ++ after)) back ∨
      EndsEntry (pieces (stripComments (before ++ after))) (withoutComments back))

/-- Without its comments, too, the body can be cut at the semicolon. -/
theorem EndsMember.exists_cut {before after : Text} (ends : EndsMember before after) :
    ∃ front back, Aligned (front ++ [.code ';']) ∧ Aligned back ∧
      before = textOf (front ++ [.code ';']) ∧ after = textOf back ∧
      Cut (withoutComments (front ++ [.code ';'])) := by
  obtain ⟨front, back, whole, rfl, ends⟩ := ends
  have aligned : Aligned (front ++ .code ';' :: back) := whole ▸ aligned_pieces _
  have parts : front ++ .code ';' :: back = front ++ [.code ';'] ++ back := by simp
  have opening : Aligned (front ++ [.code ';']) := (parts ▸ aligned).of_append_left
  have text : before ++ textOf back = textOf (front ++ [.code ';']) ++ textOf back := by
    rw [← textOf_append, ← parts, ← whole, textOf_pieces]
  refine ⟨front, back, opening, aligned.of_append_right.2, List.append_cancel_right text, rfl,
    opening.uncommented, withoutComments front, withoutComments_append .., ?_⟩
  rcases ends with raw | bare
  · rw [whole] at raw
    obtain ⟨read, same, outside⟩ := raw.outside aligned
    obtain rfl := List.append_cancel_right same
    exact (Standing.outside_withoutComments aligned.of_append_left).mpr outside
  · rw [pieces_stripComments, whole, List.flatMap_append] at bare
    obtain ⟨read, same, outside⟩ := bare.outside (List.flatMap_append ▸ aligned.uncommented)
    obtain rfl : withoutComments front = read := List.append_cancel_right same
    exact outside

end Ends

section Schemas

variable {before after comment : Text}

/-- Where a member ends, or none has begun, a comment makes no difference to the members. -/
theorem members_insert_comment (isComment : IsComment comment)
    (ends : before = [] ∨ EndsMember before after) :
    members (stripComments (before ++ comment ++ after)) =
      members (stripComments (before ++ after)) := by
  obtain ⟨remark, rfl, scanned, blank⟩ := isComment.exists_pieces
  have passed (back : List Piece) :
      entriesFrom (withoutComments remark ++ back) = entriesFrom back :=
    entriesFrom_of_separators (List.dropWhile_append_of_pos blank)
  have bare (text : Text) : members (stripComments text) =
      (entriesFrom (withoutComments (pieces text))).map (·.member) := by
    rw [members, entries, pieces_stripComments, withoutComments]
  rw [bare, bare]
  rcases ends with rfl | ends
  · have whole : pieces (textOf remark ++ after) = remark ++ pieces after := by
      have again := pieces_textOf (scanned _ (aligned_pieces after))
      rwa [textOf_append, textOf_pieces] at again
    rw [List.nil_append, List.nil_append, whole, withoutComments_append, passed]
  · obtain ⟨front, back, opening, closing, rfl, rfl, cut⟩ := ends.exists_cut
    have join {more : List Piece} (aligned : Aligned more) :
        pieces (textOf (front ++ [.code ';']) ++ textOf more) = front ++ [.code ';'] ++ more := by
      rw [← textOf_append]
      refine pieces_textOf (opening.append aligned fun piece last => ?_)
      rw [List.getLast?_concat] at last
      cases last
      exact Piece.endsBefore_code rfl fun slash => absurd slash (by decide)
    rw [List.append_assoc, ← textOf_append remark, join (scanned back closing), join closing,
      withoutComments_append _ back, withoutComments_append _ (remark ++ back),
      withoutComments_append remark, cut.members_append, cut.members_append, passed]

/-- Documentation never becomes a property: where a member ends, or none has begun, any comment may
stand, and the properties are the same. -/
theorem Schema.properties_insert_comment (name : Text) (isComment : IsComment comment)
    (ends : before = [] ∨ EndsMember before after) :
    (Schema.ofBody name (before ++ comment ++ after)).map (·.properties) =
      (Schema.ofBody name (before ++ after)).map (·.properties) := by
  have properties (body : Text) : (Schema.ofBody name body).map (·.properties) =
      ((members (stripComments body)).filter fun member => !isIndexSignature member.name).mapM
        fun member => Property.ofMember member.name member.value member.optional := by
    unfold Schema.ofBody
    dsimp only
    cases ((members (stripComments body)).filter fun member =>
      !isIndexSignature member.name).mapM fun member =>
        Property.ofMember member.name member.value member.optional <;> rfl
  rw [properties, properties, members_insert_comment isComment ends]

/-- A remark with an open brace, an open quote and a member of its own. -/
def draftRemark : Text := "/** \x7b \" draft: string; \x7d */"

theorem properties_insert_remark :
    IsComment draftRemark ∧ EndsMember "id: string;" "\n note?: string;" ∧
      (Schema.ofBody "Item" ("id: string;" ++ draftRemark ++ "\n note?: string;")).map
          (·.properties) =
        (Schema.ofBody "Item" ("id: string;" ++ "\n note?: string;")).map (·.properties) := by
  have isComment : IsComment draftRemark :=
    .inl ⟨"* \x7b \" draft: string; \x7d ", by decide, rfl⟩
  have scanned : pieces ("id: string;" ++ "\n note?: string;" : Text) =
      ("id: string;" ++ "\n note?: string;" : Text).map .code := by
    have inert : ("id: string;" ++ "\n note?: string;" : Text).all Piece.isInert = true := by
      decide
    have whole := pieces_append_code inert []
    rwa [List.append_nil, pieces, List.append_nil] at whole
  have ends : EndsMember "id: string;" "\n note?: string;" := by
    refine ⟨("id: string" : Text).map .code, ("\n note?: string;" : Text).map .code, ?_,
      textOf_map_code _, .inl (.first ?_)⟩
    · rw [scanned]
      rfl
    · rw [scanned]
      decide
  exact ⟨isComment, ends, Schema.properties_insert_comment "Item" isComment (.inr ends)⟩

end Schemas

end TypedClient
