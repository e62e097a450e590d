import TypedClient.Description.Basic
import TypedClient.Proofs.TypeLiteral.Placement

/-!
Where the blocks of a description stand. Main statement: cutting the value of a path out of the
whole text gives what the paths block declares first for it.
-/

namespace TypedClient

open Text

theorem afterWord?_suffix {word text rest : Text} (found : afterWord? word text = some rest) :
    rest <:+ text := by
  unfold afterWord? at found
  split at found
  · rename_i opens
    split at found
    · cases found
      exact ((trimStart_suffix _).trans (List.suffix_cons _ _)).trans (isPrefixOf?_suffix opens)
    · simp at found
  · simp at found

theorem skipWord_suffix (word text : Text) : skipWord word text <:+ text := by
  unfold skipWord
  cases found : afterWord? word text with
  | none => exact List.suffix_refl text
  | some rest => exact afterWord?_suffix found

theorem afterName?_suffix {previous : Char} {name text rest : Text}
    (found : afterName? previous name text = some rest) : rest <:+ text := by
  unfold afterName? at found
  split at found
  · rename_i opens
    split at found
    · cases found
      exact isPrefixOf?_suffix opens
    · simp at found
  · simp at found

theorem afterBlankName?_suffix {name text rest : Text}
    (found : afterBlankName? name text = some rest) : rest <:+ text := by
  induction text with
  | nil => simp [afterBlankName?] at found
  | cons c text ih =>
    unfold afterBlankName? at found
    split at found
    · rcases Option.or_eq_some_iff.mp found with later | ⟨_, here⟩
      · exact (ih later).trans (List.suffix_cons _ _)
      · exact (afterName?_suffix here).trans (List.suffix_cons _ _)
    · simp at found

theorem afterBrace?_suffix {text rest : Text} (found : afterBrace? text = some rest) :
    rest <:+ text := by
  have ending := trimStart_suffix text
  unfold afterBrace? at found
  split at found
  · rename_i opens
    cases found
    rw [opens] at ending
    exact (List.suffix_cons _ _).trans ending
  · rename_i after opens
    rw [opens] at ending
    have inner := trimStart_suffix after
    split at found
    · rename_i opens
      cases found
      rw [opens] at inner
      exact ((List.suffix_cons _ _).trans inner).trans ((List.suffix_cons _ _).trans ending)
    · simp at found
  · simp at found

theorem declarationBody?_suffix {name line rest : Text}
    (found : declarationBody? name line = some rest) : rest <:+ line := by
  obtain ⟨afterKeyword, keyword, found⟩ := Option.bind_eq_some_iff.mp found
  obtain ⟨afterName, named, found⟩ := Option.bind_eq_some_iff.mp found
  have fromKeyword : rest <:+ afterKeyword :=
    (afterBrace?_suffix found).trans (afterBlankName?_suffix named)
  have fromStart : afterKeyword <:+ skipWord "declare"
      (skipWord "export" (line.dropWhile fun c => c == ' ' || c == '\t')) := by
    rcases Option.or_eq_some_iff.mp keyword with opens | ⟨_, opens⟩
    · exact isPrefixOf?_suffix opens
    · exact isPrefixOf?_suffix opens
  have fromLine := ((skipWord_suffix "declare" _).trans (skipWord_suffix "export" _)).trans
    (List.dropWhile_suffix (l := line) fun c => c == ' ' || c == '\t')
  exact (fromKeyword.trans fromStart).trans fromLine

theorem findDeclaration?_suffix {name text rest : Text} {atLineStart : Bool}
    (found : findDeclaration? name atLineStart text = some rest) : rest <:+ text := by
  induction text generalizing atLineStart with
  | nil => simp [findDeclaration?] at found
  | cons c text ih =>
    rcases Option.or_eq_some_iff.mp found with here | ⟨_, later⟩
    · split at here
      · exact declarationBody?_suffix here
      · simp at here
    · exact (ih later).trans (List.suffix_cons _ _)

/-- The block stands in the text where it says it does. -/
def Block.StandsIn (text : Text) (block : Block) : Prop := StandsAt block.start block.body text

theorem declared_standsIn {text name : Text} {block : Block}
    (found : declared text name = .ok block) : block.StandsIn text := by
  unfold declared at found
  split at found
  · cases found
  · rename_i rest declaration
    dsimp only at found
    split at found
    · rename_i inner after closes
      cases found
      have opens : rest = textOf inner ++ textOf (.code '}' :: after) := by
        rw [← textOf_append, ← splitClose_append closes, textOf_pieces]
      exact .of_suffix opens (findDeclaration?_suffix declaration)
    · cases found

theorem Block.descend_standsIn {text : Text} {names : List Text} {outer inner : Block}
    (stands : outer.StandsIn text) (found : outer.descend names = .ok inner) :
    inner.StandsIn text := by
  induction names generalizing outer with
  | nil =>
    cases found
    exact stands
  | cons name rest ih =>
    unfold Block.descend at found
    split at found
    · cases found
    · rename_i entry named
      split at found
      · cases found
      · rename_i body literal
        have inside := Entry.block_standsAt (List.mem_of_find?_eq_some named) literal
        have placed : StandsAt (outer.start + (entry.offset outer.body + 1)) body text :=
          StandsAt.trans stands inside
        rw [← Nat.add_assoc] at placed
        have block : Block.StandsIn text ⟨outer.start + entry.offset outer.body + 1, body⟩ := placed
        exact ih block found

theorem locate_standsIn {text dotted : Text} {block : Block}
    (found : locate text dotted = .ok block) : block.StandsIn text := by
  unfold locate at found
  split at found
  · cases found
  · rename_i root names _
    cases outer : declared text root with
    | error error =>
      rw [outer] at found
      cases found
    | ok declaration =>
      rw [outer] at found
      exact Block.descend_standsIn (declared_standsIn outer) found

theorem Section.standsIn_of_find {text name : Text} {found : Section}
    (located : (Section.find text name).value = some found) : found.block.StandsIn text := by
  unfold Section.find at located
  split at located
  · rename_i block here
    cases located
    exact locate_standsIn here
  · cases located

/-- The range that is noted for an entry of a section holds its value. -/
theorem Section.slice?_range {text : Text} {found : Section} {entry : Entry}
    (stands : found.block.StandsIn text) (member : entry ∈ found.contents) :
    slice? (found.range entry).1 (found.range entry).2 text = some entry.member.value := by
  rw [found.contents_eq] at member
  exact (StandsAt.trans stands (Entry.value_standsAt member)).slice?

/-- Cutting a path out of the whole text again finds the body of its first declaration. -/
def Description.Indexed (description : Description) : Prop :=
  ∀ path, description.pathBody? path =
    (description.pathMembers.find? fun member => member.name = path).bind Member.block?

theorem Description.indexed_ofText (text : Text) : (ofText text).value.Indexed := by
  intro path
  have located : ∀ found, (ofText text).value.paths = some found → found.block.StandsIn text :=
    fun found here => Section.standsIn_of_find here
  unfold pathBody? pathRange? pathMembers
  cases paths : (ofText text).value.paths with
  | none => rfl
  | some found =>
    have same : found.members.find? (fun member => member.name = path) =
        (found.contents.find? fun entry => entry.member.name = path).map (·.member) :=
      List.find?_map ..
    cases first : found.contents.find? fun entry => entry.member.name = path with
    | none => simp [same, first]
    | some entry =>
      have cut := Section.slice?_range (located found paths) (List.mem_of_find?_eq_some first)
      have whole : (ofText text).value.text = text := rfl
      simp [same, first, whole, cut, Member.block?]

end TypedClient
