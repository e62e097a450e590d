import TypedClient.Proofs.TypeLiteral.Flat
import TypedClient.Proofs.TypeLiteral.Placement
import TypedClient.Proofs.Name.Characters

/-!
Object types read back. Main statement: the members of a rendered object are those it was rendered
from, their values on one line, and literals that keep their structure on one line have it there.
-/

namespace TypedClient

open Text Name

section Keys

variable {name : Text} {after : List Piece} {closers : List Char}

/-- The pieces of a key as it is rendered. -/
def keyPieces (name : Text) : List Piece :=
  if isPlain name then name.map .code else [.quoted ('\'' :: escape (· == '\'') name ++ ['\''])]

theorem textOf_keyPieces (name : Text) : textOf (keyPieces name) = propertyKey name := by
  unfold keyPieces propertyKey
  split
  · exact textOf_map_code name
  · exact List.append_nil _

theorem canonical_of_isPlain (plain : isPlain name = true) : (WrittenKey.word name).Canonical := by
  cases name with
  | nil => contradiction
  | cons c rest =>
    rw [isPlain, Bool.and_eq_true] at plain
    refine ⟨List.cons_ne_nil c rest, ?_⟩
    rw [List.all_cons, Bool.and_eq_true]
    exact ⟨continuesIdentifier_of_starts plain.1, plain.2⟩

/-- A name without backslashes ends at the quote behind it, and not before. -/
theorem endsQuoted_escape (free : '\\' ∉ name) :
    Piece.endsQuoted '\'' (escape (· == '\'') name ++ ['\'']) = true := by
  induction name with
  | nil => rfl
  | cons c rest ih =>
    rw [List.mem_cons, not_or] at free
    rw [escape_cons]
    by_cases mark : c = '\''
    · subst mark
      exact ih free.2
    · rw [if_neg (by simpa using mark), List.singleton_append, List.cons_append,
        Piece.endsQuoted_cons (Ne.symm free.1), if_neg mark]
      exact ih free.2

/-- The backslashes of an escaped name stand in front of single quotes only. -/
theorem replace_double_escape (free : '\\' ∉ name) :
    replace "\\\"" "\"" (escape (· == '\'') name) = escape (· == '\'') name := by
  change replace ['\\', '"'] ['"'] _ = _
  induction name with
  | nil => rw [escape, List.flatMap_nil, replace]
  | cons c rest ih =>
    rw [List.mem_cons, not_or] at free
    rw [escape_cons]
    split
    · rename_i mark
      rw [eq_of_beq mark, List.cons_append, List.singleton_append,
        replace_cons_of_next (by simp), replace_cons_of_other (by decide), ih free.2]
    · rw [List.singleton_append, replace_cons_of_other (Ne.symm free.1), ih free.2]

theorem replace_escape (free : '\\' ∉ name) :
    replace "\\'" "'" (escape (· == '\'') name) = name := by
  change replace ['\\', '\''] ['\''] _ = _
  induction name with
  | nil => rw [escape, List.flatMap_nil, replace]
  | cons c rest ih =>
    rw [List.mem_cons, not_or] at free
    rw [escape_cons]
    split
    · rename_i mark
      rw [eq_of_beq mark, List.cons_append, List.singleton_append, replace_pair, ih free.2]
    · rw [List.singleton_append, replace_cons_of_other (Ne.symm free.1), ih free.2]

theorem aligned_keyPieces (free : '\\' ∉ name) (back : Aligned after) :
    Aligned (keyPieces name ++ after) := by
  unfold keyPieces
  split
  · rename_i plain
    exact WrittenKey.aligned_append (canonical_of_isPlain plain) back
  · exact ⟨Piece.endsBefore_quoted rfl (endsQuoted_escape free) _, back⟩

theorem readKey?_keyPieces (free : '\\' ∉ name)
    (stops : after.head?.all (fun piece => !piece.isKeyPiece) = true) :
    readKey? (keyPieces name ++ after) = some (name, after) := by
  unfold keyPieces
  split
  · rename_i plain
    exact WrittenKey.readKey?_append (canonical_of_isPlain plain) stops
  · have closed : Piece.isClosedSpan ('\'' :: escape (· == '\'') name ++ ['\'']) = true := by
      rw [List.cons_append, Piece.isClosedSpan, endsQuoted_escape free]
      rfl
    obtain ⟨quote, literal, same, inside⟩ := Piece.literal_of_isClosedSpan closed
    obtain ⟨rfl, rest⟩ := List.cons.inj same
    obtain rfl := List.append_cancel_right rest
    rw [List.singleton_append, readKey?, if_neg (by simp), inside, Option.map_some,
      replace_double_escape free, replace_escape free]

theorem nextClosers?_of_isKeyChar {c : Char} (key : isKeyChar c = true) :
    nextClosers? closers c = some closers :=
  nextClosers?_of_unmarked (isMark_of_isKeyChar key) (isCloser_of_apart ⟨rfl, rfl, rfl⟩ key)

theorem closersBehind?_word {run : Text} (word : run.all isKeyChar = true) :
    closersBehind? closers (run.map .code) = some closers := by
  induction run with
  | nil => rfl
  | cons c rest ih =>
    rw [List.all_cons, Bool.and_eq_true] at word
    rw [List.map_cons, closersBehind?, nextClosers?_of_isKeyChar word.1, Option.bind_some,
      ih word.2]

theorem closersBehind?_keyPieces (name : Text) :
    closersBehind? closers (keyPieces name) = some closers := by
  unfold keyPieces
  split
  · rename_i plain
    exact closersBehind?_word (canonical_of_isPlain plain).2
  · rfl

theorem head?_keyPieces_stops (name : Text) (after : List Piece) :
    (keyPieces name ++ after).head?.all (fun piece => !piece.isSeparator) = true := by
  unfold keyPieces
  split
  · rename_i plain
    exact WrittenKey.head?_append_stops (canonical_of_isPlain plain) after
  · rfl

end Keys

section Values

variable {text : Text} {flat rest : List Piece}

theorem getLast?_collapseBlanks (stops : text.getLast?.all (fun c => !isBlank c) = true) :
    (collapseBlanks text).getLast?.all (fun c => !isBlank c) = true := by
  cases last : text.getLast? with
  | none => rw [List.getLast?_eq_none_iff.mp last]; rfl
  | some c =>
    obtain ⟨front, rfl⟩ := List.getLast?_eq_some_iff.mp last
    rw [last] at stops
    have solid : isBlank c = false := by simpa using stops
    rw [collapseBlanks_concat front solid, List.getLast?_concat]
    simp [solid]

/-- A type on one line stays as it is between blanks. -/
theorem trim_append_collapseType {before after : Text} (opening : before.all isBlank = true)
    (closing : after.all isBlank = true) (value : Text) :
    trim (before ++ collapseType value ++ after) = collapseType value := by
  rw [trim_append_blanks closing]
  refine trim_append before opening ?_ (getLast?_collapseBlanks (getLast?_trim_stops _))
  have starts := head?_dropWhile_stops isBlank (trim (stripComments value))
  rw [show (trim (stripComments value)).dropWhile isBlank = trim (stripComments value) from
    trimStart_trim _] at starts
  rw [collapseType, head?_collapseBlanks]
  cases first : (trim (stripComments value)).head? with
  | none => rfl
  | some c =>
    rw [first] at starts
    have solid : isBlank c = false := by simpa using starts
    simp [solid]

open Standing

theorem passes_space (line : LineValue flat) : Standing.outer.Passes (.code ' ' :: flat) :=
  ⟨fun _ => ⟨by decide, by decide⟩, line.passes⟩

theorem readValue_line_last (line : LineValue flat) :
    readValue (.code ' ' :: (flat ++ [.code ' '])) = (.code ' ' :: (flat ++ [.code ' ']), []) := by
  have aligned : Aligned ((.code ' ' :: (flat ++ [.code ' '])) ++ []) := by
    rw [List.append_nil]
    refine ⟨Piece.endsBefore_code rfl nofun, ?_⟩
    exact line.aligned.append_of_allClosed (allClosed_of_isOnLine line.line)
      ⟨Piece.endsBefore_code rfl nofun, trivial⟩ fun _ => ⟨nofun, nofun⟩
  have onLine : (.code ' ' :: (flat ++ [.code ' '])).all Piece.isOnLine = true := by
    rw [List.all_cons, List.all_append, line.line]
    rfl
  have passes : Standing.outer.Passes (.code ' ' :: (flat ++ [.code ' '])) := by
    rw [← List.cons_append, passes_append]
    exact ⟨passes_space line, fun _ => ⟨by decide, by decide⟩, trivial⟩
  obtain ⟨read, same⟩ := splitValue_of_passes aligned (Knows.start _) onLine passes
  rw [List.append_nil] at same
  exact same.trans (by simp [splitValue])

theorem readValue_line_more (line : LineValue flat)
    (outside : (Standing.outer.behind flat).Outside) (aligned : Aligned (.code ';' :: rest)) :
    readValue (.code ' ' :: (flat ++ .code ';' :: rest)) =
      (.code ' ' :: flat, .code ';' :: rest) := by
  have whole : Aligned ((.code ' ' :: flat) ++ .code ';' :: rest) := by
    refine ⟨Piece.endsBefore_code rfl nofun, ?_⟩
    exact line.aligned.append_of_allClosed (allClosed_of_isOnLine line.line) aligned
      fun _ => ⟨nofun, nofun⟩
  have onLine : (.code ' ' :: flat).all Piece.isOnLine = true := by
    rw [List.all_cons, line.line]
    rfl
  obtain ⟨read, same⟩ := splitValue_of_passes whole (Knows.start _) onLine (passes_space line)
  have behind : (Standing.outer.behind (.code ' ' :: flat)).Outside := outside
  rw [splitValue_of_stops (stops_of_separator behind (.inl rfl) read rest)] at same
  rw [List.append_nil] at same
  exact same

end Values

/-- A member with its value on one line. -/
def Member.onLine (member : Member) : Member := { member with value := collapseType member.value }

section Fields

open WrittenMember

variable {member : Member} {flat after found : List Piece} {text : Text} {shown : List Member}

/-- The pieces of a field, with those of its type, in front of others. -/
def fieldPieces (member : Member) (flat after : List Piece) : List Piece :=
  keyPieces member.name ++
    ((markText member.optional).map .code ++ .code ':' :: .code ' ' :: (flat ++ after))

theorem textOf_fieldPieces (type : textOf flat = collapseType member.value) (after : List Piece) :
    textOf (fieldPieces member flat after) = member.toField.render ++ textOf after := by
  unfold fieldPieces Field.render Member.toField
  simp only [textOf_append, textOf_cons, textOf_map_code, textOf_keyPieces, type]
  cases member.optional <;> simp [markText, Piece.text]

theorem readEntry_fieldPieces (free : '\\' ∉ member.name) (flat after : List Piece) :
    readEntry (fieldPieces member flat after) =
      (some ⟨⟨member.name, member.optional,
          trim (textOf (readValue (.code ' ' :: (flat ++ after))).1)⟩, .code ' ' :: (flat ++ after)⟩,
        (readValue (.code ' ' :: (flat ++ after))).2.drop 1) := by
  refine readEntry_of_key (readModifiedKey?_of_solid (readKey?_keyPieces free ?_) ?_)
  · cases member.optional <;> rfl
  · cases member.optional <;> rfl

theorem aligned_fieldPieces (free : '\\' ∉ member.name) (line : LineValue flat)
    (back : Aligned after) (mark : (textOf after).head? ≠ some '/' ∧ (textOf after).head? ≠ some '*') :
    Aligned (fieldPieces member flat after) := by
  have type : Aligned (flat ++ after) :=
    line.aligned.append_of_allClosed (allClosed_of_isOnLine line.line) back fun _ => mark
  have colon : Aligned (.code ':' :: .code ' ' :: (flat ++ after)) :=
    ⟨Piece.endsBefore_code rfl nofun, Piece.endsBefore_code rfl nofun, type⟩
  refine aligned_keyPieces free (Aligned.append_code ?_ colon)
  cases member.optional <;> rfl

theorem closersBehind?_fieldPieces (line : LineValue flat) (after : List Piece) :
    closersBehind? [] (fieldPieces member flat after) = closersBehind? [] after := by
  unfold fieldPieces
  rw [closersBehind?_append, closersBehind?_keyPieces, Option.bind_some]
  have type : closersBehind? [] (.code ':' :: .code ' ' :: (flat ++ after)) =
      closersBehind? [] after := by
    change closersBehind? [] (flat ++ after) = _
    rw [closersBehind?_append, line.nests]
    rfl
  cases member.optional <;> exact type

/-- The pieces of the inside of a rendered object, and the members that are read in it. -/
structure Rendered (found : List Piece) (text : Text) (shown : List Member) : Prop where
  text : textOf found = text
  aligned : Aligned found
  nests : closersBehind? [] found = some []
  last : found.getLast? = some (.code ' ')
  reads : (entriesFrom found).map (·.member) = shown

theorem dropSeparators_field (member : Member) (flat after : List Piece) :
    (.code ' ' :: fieldPieces member flat after).dropWhile Piece.isSeparator =
      fieldPieces member flat after :=
  dropWhile_append_of_stop [.code ' '] rfl (head?_keyPieces_stops member.name _)

theorem fieldPieces_ne_nil (member : Member) (flat after : List Piece) :
    fieldPieces member flat after ≠ [] := by
  simp [fieldPieces]

theorem getLast?_fieldPieces (last : after.getLast? = some (.code ' ')) (flat : List Piece) :
    (.code ' ' :: fieldPieces member flat after).getLast? = some (.code ' ') := by
  obtain ⟨front, rfl⟩ := List.getLast?_eq_some_iff.mp last
  refine List.getLast?_eq_some_iff.mpr ⟨.code ' ' :: fieldPieces member flat front, ?_⟩
  simp [fieldPieces]

/-- The last field. -/
theorem rendered_last (free : '\\' ∉ member.name) (line : LineValue flat)
    (type : textOf flat = collapseType member.value) :
    Rendered (.code ' ' :: fieldPieces member flat [.code ' '])
      (' ' :: (member.toField.render ++ [' '])) [member.onLine] where
  text := by
    rw [textOf_cons, textOf_fieldPieces type]
    rfl
  aligned := ⟨Piece.endsBefore_code rfl nofun,
    aligned_fieldPieces free line ⟨Piece.endsBefore_code rfl nofun, trivial⟩ ⟨nofun, nofun⟩⟩
  nests := by
    change closersBehind? [] (fieldPieces member flat [.code ' ']) = some []
    rw [closersBehind?_fieldPieces line]
    rfl
  last := getLast?_fieldPieces rfl flat
  reads := by
    have value : trim (textOf (.code ' ' :: (flat ++ [.code ' ']))) = collapseType member.value := by
      rw [textOf_cons, textOf_append, type, ← List.append_assoc]
      exact trim_append_collapseType rfl rfl member.value
    rw [entriesFrom_of_start (fieldPieces_ne_nil member flat _) (dropSeparators_field member flat _),
      readEntry_fieldPieces free, readValue_line_last line, value, List.drop_nil,
      entriesFrom_of_empty rfl]
    rfl

/-- A field with others behind it. -/
theorem rendered_cons (free : '\\' ∉ member.name) (line : LineValue flat)
    (type : textOf flat = collapseType member.value)
    (outside : (Standing.outer.behind flat).Outside) (later : Rendered found text shown) :
    Rendered (.code ' ' :: fieldPieces member flat (.code ';' :: found))
      (' ' :: (member.toField.render ++ ';' :: text)) (member.onLine :: shown) where
  text := by
    rw [textOf_cons, textOf_fieldPieces type, textOf_cons, later.text]
    rfl
  aligned := ⟨Piece.endsBefore_code rfl nofun,
    aligned_fieldPieces free line ⟨Piece.endsBefore_code rfl nofun, later.aligned⟩ ⟨nofun, nofun⟩⟩
  nests := by
    change closersBehind? [] (fieldPieces member flat (.code ';' :: found)) = some []
    rw [closersBehind?_fieldPieces line]
    exact later.nests
  last := getLast?_fieldPieces (by rw [List.getLast?_cons, later.last]; rfl) flat
  reads := by
    have aligned : Aligned (.code ';' :: found) := ⟨Piece.endsBefore_code rfl nofun, later.aligned⟩
    have value : trim (textOf (.code ' ' :: flat)) = collapseType member.value := by
      have space : [' '].all isBlank = true := rfl
      have trimmed := trim_append_collapseType space (show [].all isBlank = true from rfl) member.value
      rw [List.append_nil] at trimmed
      rwa [textOf_cons, type]
    rw [entriesFrom_of_start (fieldPieces_ne_nil member flat _) (dropSeparators_field member flat _),
      readEntry_fieldPieces free, readValue_line_more line outside aligned, value, List.map_append,
      List.drop_one, List.tail_cons, later.reads]
    rfl

theorem exists_rendered {listed : List Member} (lined : Lined listed)
    (free : ∀ member ∈ listed, '\\' ∉ member.name) (filled : listed ≠ []) :
    ∃ found, Rendered found
      (' ' :: (join "; " ((listed.map Member.toField).map Field.render) ++ [' ']))
      (listed.map Member.onLine) := by
  induction listed with
  | nil => contradiction
  | cons member rest ih =>
    obtain ⟨⟨flat, line, type, outside⟩, more⟩ := lined
    have here := free member List.mem_cons_self
    cases rest with
    | nil =>
      refine ⟨.code ' ' :: fieldPieces member flat [.code ' '], ?_⟩
      rw [List.map_singleton, List.map_singleton, List.map_singleton, join_singleton]
      exact rendered_last here line type
    | cons next rest =>
      obtain ⟨found, later⟩ :=
        ih more (fun other listed => free other (List.mem_cons_of_mem _ listed)) (by simp)
      refine ⟨.code ' ' :: fieldPieces member flat (.code ';' :: found), ?_⟩
      rw [List.map_cons, List.map_cons, List.map_cons, List.map_cons, join_cons_cons,
        List.append_assoc, List.append_assoc]
      exact rendered_cons here line type (outside (by simp)) later

end Fields

section Objects

variable {value body : Text} {found : List Piece} {text : Text} {shown : List Member}

/-- What stands in the braces of a rendered object is what is read in them. -/
theorem Rendered.braced (rendered : Rendered found text shown) :
    braced? ('{' :: text ++ ['}']) = some text ∧ members text = shown := by
  have inside : pieces text = found := by rw [← rendered.text, pieces_textOf rendered.aligned]
  have closed : Aligned (found ++ [.code '}']) := by
    refine rendered.aligned.append ⟨Piece.endsBefore_code rfl (absurd · (by decide)), trivial⟩ ?_
    intro piece last
    obtain rfl : .code ' ' = piece := Option.some.inj (rendered.last.symm.trans last)
    exact Piece.endsBefore_code rfl (absurd · (by decide))
  have whole : pieces (text ++ ['}']) = found ++ [.code '}'] := by
    rw [← pieces_textOf closed, textOf_append, rendered.text]
    rfl
  have split : splitClose '{' '}' 0 (found ++ [.code '}']) = some (found, []) :=
    splitClose_of_nests rendered.nests []
  constructor
  · change closedAlone? (text ++ ['}']) = some text
    rw [closedAlone?, whole, split, ← rendered.text]
    rfl
  · rw [members, entries, inside, rendered.reads]

theorem enclosed_of_braced? (literal : braced? value = some body) (nests : BracketsNest body) :
    Enclosed (pieces body) :=
  ⟨aligned_pieces body, fun span member => quotesClosed_of_braced? literal span member, nests⟩

/-- A literal without blanks around it. -/
theorem pieces_of_braced? (literal : braced? value = some body) (trimmed : trim value = value) :
    pieces value = .code '{' :: (pieces body ++ [.code '}']) := by
  have bare : trimStart value = value := by rw [← trimmed, trimStart_trim]
  have stops := getLast?_trim_stops value
  rw [trimmed] at stops
  unfold braced? at literal
  rw [bare] at literal
  split at literal
  · rename_i rest
    split at literal
    · rename_i inner after split
      have aligned : Aligned (inner ++ .code '}' :: after) :=
        splitClose_append split ▸ aligned_pieces rest
      split at literal
      · rename_i blank
        cases literal
        have none : after = [] := by
          by_contra filled
          have text := (aligned.of_append_right.2).textOf_ne_nil filled
          obtain ⟨c, last⟩ : ∃ c, (textOf after).getLast? = some c :=
            ⟨_, List.getLast?_eq_some_getLast text⟩
          rw [textOf_of_splitClose split, List.getLast?_cons, List.getLast?_append,
            List.getLast?_cons, last] at stops
          have here := List.all_eq_true.mp blank c (List.mem_of_getLast? last)
          simp [here] at stops
        have scanned : pieces ('{' :: rest) = .code '{' :: pieces rest :=
          pieces_append_code (show ("\x7b" : Text).all Piece.isInert = true from rfl) rest
        rw [scanned, splitClose_append split, none, pieces_textOf aligned.of_append_left]
      · contradiction
    · contradiction
  · contradiction

/-- A literal is one on one line, and its inside is put on one line. -/
theorem braced?_collapseType (literal : braced? value = some body) (trimmed : trim value = value) :
    ∃ bodyFlat, braced? (collapseType value) = some bodyFlat ∧
      Flattened Piece.isSpacing (pieces body) (pieces bodyFlat) := by
  have scanned := pieces_of_braced? literal trimmed
  have closed : ∀ span, .quoted span ∈ pieces value → Piece.isClosedSpan span = true := by
    intro span member
    rw [scanned] at member
    exact quotesClosed_of_braced? literal span (by simpa using member)
  obtain ⟨lead, core, trail, flat, whole, opening, ending, flattened, aligned, text⟩ :=
    exists_flattened_core (aligned_pieces value) closed
  have noLead : lead = [] := by
    cases lead with
    | nil => rfl
    | cons piece lead =>
      rw [scanned, List.append_assoc, List.cons_append] at whole
      rw [List.all_cons, ← (List.cons.inj whole).1] at opening
      contradiction
  have noTrail : trail = [] := by
    rcases List.eq_nil_or_concat trail with none | ⟨front, piece, rfl⟩
    · exact none
    · rw [scanned, List.concat_eq_append, ← List.append_assoc, ← List.cons_append] at whole
      rw [List.concat_eq_append, List.all_append,
        ← List.singleton_inj.mp (List.append_inj_right' whole rfl)] at ending
      simp [Piece.isSpacing, show isBlank '}' = false from rfl] at ending
  rw [noLead, noTrail, List.nil_append, List.append_nil] at whole
  rw [← whole] at flattened
  have here : braced? (textOf (pieces value)) = some body := by rw [textOf_pieces, literal]
  rw [textOf_pieces] at text
  rw [← text]
  exact flattened_braced? flattened (fun _ => id) (aligned_pieces value) aligned here

theorem trim_value_of_mem {member : Member} (listed : member ∈ members body) :
    trim member.value = member.value := by
  obtain ⟨entry, found, rfl⟩ := List.mem_map.mp listed
  have read : entry.ReadFrom (pieces body) := readFrom_of_mem_entriesFrom found
  rw [read.value, trim, trimStart_trim, trimEnd_of_stop (getLast?_trim_stops _)]

theorem renderObject_of_ne_nil {fields : List Field} (filled : fields ≠ []) :
    renderObject fields =
      '{' :: (' ' :: (join "; " (fields.map Field.render) ++ [' '])) ++ ['}'] := by
  rw [renderObject, if_neg filled]
  simp

/-- The members of a body are read again in the object rendered from them. -/
theorem members_renderObject (enclosed : Enclosed (pieces body))
    (free : ∀ member ∈ members body, '\\' ∉ member.name) :
    ∃ inner, braced? (renderObject ((members body).map Member.toField)) = some inner ∧
      members inner = (members body).map Member.onLine := by
  by_cases empty : members body = []
  · refine ⟨[], ?_⟩
    rw [empty]
    decide +kernel
  · have lined : Lined (members body) := enclosed.lined
    obtain ⟨found, rendered⟩ := exists_rendered lined free empty
    obtain ⟨literal, shown⟩ := rendered.braced
    have fields : (members body).map Member.toField ≠ [] := by simpa using empty
    exact ⟨_, renderObject_of_ne_nil fields ▸ literal, shown⟩

/-- A rendered object has the members it was rendered from: their names and optional marks in order,
and their values on one line. Literals among the values keep their structure as deep as they are
durable. -/
theorem renderObject_keeps_structure (literal : braced? value = some body)
    (nests : BracketsNest body) (free : ∀ member ∈ members body, '\\' ∉ member.name) :
    ∃ inner, braced? (renderObject ((members body).map Member.toField)) = some inner ∧
      members inner = (members body).map Member.onLine ∧
      ∀ depth, (∀ member ∈ members body, ∀ inside ∈ member.block?, Durable depth inside) →
        SameStructure (depth + 1) body inner := by
  obtain ⟨inner, rendered, shown⟩ :=
    members_renderObject (enclosed_of_braced? literal nests) free
  refine ⟨inner, rendered, shown, fun depth durable => ?_⟩
  rw [SameStructure, shown, List.forall₂_map_right_iff, List.forall₂_same]
  intro member listed
  refine ⟨rfl, rfl, fun inside block => ?_⟩
  obtain ⟨flat, flatLiteral, lines⟩ :=
    braced?_collapseType block (trim_value_of_mem listed)
  refine ⟨flat, flatLiteral, ?_⟩
  cases depth with
  | zero => trivial
  | succ depth =>
    have here := durable member listed inside block
    exact sameStructure_of_flattened (depth + 1) (lines.imp here.1) here

/-- A profile whose literals end their members with semicolons and commas. -/
def profileBody : Text :=
  " name: string;\n 'home page'?: \x7b\n  url: string;\n  size: \x7b w: number, h: number \x7d\n \x7d\n"

theorem renderObject_keeps_profile :
    ∃ inner, braced? (renderObject ((members profileBody).map Member.toField)) = some inner ∧
      SameStructure 3 profileBody inner := by
  obtain ⟨inner, rendered, _, deep⟩ :=
    renderObject_keeps_structure (show braced? ('{' :: profileBody ++ ['}']) = some profileBody by
      decide +kernel) (by decide +kernel) (by decide +kernel)
  exact ⟨inner, rendered, deep 2 (by decide +kernel)⟩

/-- A literal in a literal, its members on lines of their own. -/
def endedBody : Text := "a: \x7b\n  b: string\n  c: number\n\x7d"

/-- Members that line feeds end in a nested literal are one member once it stands on one line. -/
theorem renderObject_joins_lines :
    braced? ('{' :: endedBody ++ ['}']) = some endedBody ∧ BracketsNest endedBody ∧
      (∀ member ∈ members endedBody, '\\' ∉ member.name) ∧
      renderObject ((members endedBody).map Member.toField) =
        "\x7b a: \x7b b: string c: number \x7d \x7d" ∧
      ∀ inner ∈ braced? (renderObject ((members endedBody).map Member.toField)),
        ¬ SameStructure 2 endedBody inner := by
  decide +kernel

end Objects

end TypedClient
