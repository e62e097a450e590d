import Mathlib.Data.List.Chain
import TypedClient.Module.WrapperText
import TypedClient.Proofs.Piece.Closed
import TypedClient.TypeText.Reference

/-!
Tokens of type text, where a reference to a schema is one token. Type text is cut as other text is cut
into pieces, with fragments in place of characters. Main statement: where no reference touches a name
or stands in a quoted span or a comment, writing names for the references gives a text with the tokens
of the type, a name for each reference.
-/

namespace TypedClient

open Text

/-- The text of fragments, with names for the schemas referred to. -/
def written (nameOf : Text → Text) (type : List Fragment) : Text :=
  type.flatMap fun
    | .schema name => nameOf name
    | .other c => [c]

/-- A text without references. -/
def Fragment.ofText (text : Text) : List Fragment := text.map other

def Fragment.isOther : Fragment → Bool
  | other _ => true
  | schema _ => false

/-- A piece of type text: a quoted span or a comment may hold references. -/
inductive Stretch
  | code (fragment : Fragment)
  | quoted (span : List Fragment)
  | comment (span : List Fragment)
  deriving DecidableEq, Repr

namespace Stretch

def fragments : Stretch → List Fragment
  | code fragment => [fragment]
  | quoted span => span
  | comment span => span

/-- The rest of a quoted span through its closing quote, and what follows. -/
def quotedTail (quote : Char) : List Fragment → List Fragment × List Fragment
  | [] => ([], [])
  | .other '\\' :: kept :: rest =>
    let (span, after) := quotedTail quote rest
    (.other '\\' :: kept :: span, after)
  | fragment :: rest =>
    if fragment = .other quote then ([fragment], rest)
    else
      let (span, after) := quotedTail quote rest
      (fragment :: span, after)

/-- The rest of a block comment through its end mark, and what follows. -/
def blockTail : List Fragment → List Fragment × List Fragment
  | [] => ([], [])
  | .other '*' :: .other '/' :: rest => ([.other '*', .other '/'], rest)
  | fragment :: rest =>
    let (span, after) := blockTail rest
    (fragment :: span, after)

def inLine (fragment : Fragment) : Bool := fragment != .other '\n'

/-- The stretch that begins with a fragment, and what follows it. -/
def first (fragment : Fragment) (rest : List Fragment) : Stretch × List Fragment :=
  match fragment, rest with
  | .other '/', .other '/' :: line =>
    (comment (.other '/' :: .other '/' :: line.takeWhile inLine), line.dropWhile inLine)
  | .other '/', .other '*' :: block =>
    (comment (.other '/' :: .other '*' :: (blockTail block).1), (blockTail block).2)
  | .other c, rest =>
    if Piece.isQuote c then (quoted (.other c :: (quotedTail c rest).1), (quotedTail c rest).2)
    else (code (.other c), rest)
  | .schema name, rest => (code (.schema name), rest)

theorem quotedTail_append (quote : Char) (type : List Fragment) :
    (quotedTail quote type).1 ++ (quotedTail quote type).2 = type := by
  fun_induction quotedTail quote type <;> simp_all

theorem blockTail_append (type : List Fragment) :
    (blockTail type).1 ++ (blockTail type).2 = type := by
  fun_induction blockTail type <;> simp_all

theorem first_append (fragment : Fragment) (rest : List Fragment) :
    (first fragment rest).1.fragments ++ (first fragment rest).2 = fragment :: rest := by
  unfold first
  split
  · simp [fragments, List.takeWhile_append_dropWhile]
  · simp [fragments, blockTail_append]
  · split <;> simp [fragments, quotedTail_append]
  · rfl

theorem first_length (fragment : Fragment) (rest : List Fragment) :
    (first fragment rest).2.length < rest.length + 1 := by
  have whole := congrArg List.length (first_append fragment rest)
  have filled : 0 < (first fragment rest).1.fragments.length := by
    unfold first
    split
    · simp [fragments]
    · simp [fragments]
    · split <;> simp [fragments]
    · simp [fragments]
  simp only [List.length_append, List.length_cons] at whole
  omega

end Stretch

/-- The stretches of type text in order. -/
def stretches (type : List Fragment) : List Stretch :=
  match type with
  | [] => []
  | fragment :: rest => (Stretch.first fragment rest).1 :: stretches (Stretch.first fragment rest).2
termination_by type.length
decreasing_by exact Stretch.first_length fragment rest

theorem fragments_stretches (type : List Fragment) :
    (stretches type).flatMap Stretch.fragments = type := by
  fun_induction stretches type with
  | case1 => rfl
  | case2 fragment rest ih => rw [List.flatMap_cons, ih, Stretch.first_append]

section Written

variable {nameOf : Text → Text} {type span rest : List Fragment}

@[simp] theorem written_nil : written nameOf [] = [] := rfl

@[simp] theorem written_other (c : Char) (rest : List Fragment) :
    written nameOf (.other c :: rest) = c :: written nameOf rest := rfl

@[simp] theorem written_schema (schema : Text) (rest : List Fragment) :
    written nameOf (.schema schema :: rest) = nameOf schema ++ written nameOf rest := rfl

@[simp] theorem written_append (front back : List Fragment) :
    written nameOf (front ++ back) = written nameOf front ++ written nameOf back :=
  List.flatMap_append

@[simp] theorem written_ofText (nameOf : Text → Text) (text : Text) :
    written nameOf (Fragment.ofText text) = text := by
  induction text with
  | nil => rfl
  | cons c rest ih => exact congrArg (c :: ·) ih

theorem eq_other_of_isOther {fragment : Fragment} (other : fragment.isOther = true) :
    ∃ c, fragment = .other c := by
  cases fragment with
  | other c => exact ⟨c, rfl⟩
  | schema schema => contradiction

/-- A quoted span without references ends where it does in the text. -/
theorem quotedTail_written {quote : Char} (mark : quote ≠ '\\')
    (clean : (Stretch.quotedTail quote type).1.all Fragment.isOther = true) :
    Piece.quotedTail quote (written nameOf type) =
      (written nameOf (Stretch.quotedTail quote type).1,
        written nameOf (Stretch.quotedTail quote type).2) := by
  fun_induction Stretch.quotedTail quote type with
  | case1 => rfl
  | case2 kept rest span after tail ih =>
    simp only [List.all_cons, Bool.and_eq_true] at clean
    obtain ⟨d, rfl⟩ := eq_other_of_isOther clean.2.1
    rw [tail] at ih
    simp [Piece.quotedTail, ih clean.2.2]
  | case3 rest alone => simp [Piece.quotedTail_cons mark]
  | case4 fragment rest alone different span after tail ih =>
    simp only [List.all_cons, Bool.and_eq_true] at clean
    obtain ⟨c, rfl⟩ := eq_other_of_isOther clean.1
    rw [tail] at ih
    have other : c ≠ quote := fun same => different (congrArg Fragment.other same)
    by_cases escape : c = '\\'
    · -- a backslash that keeps nothing is the last character
      subst escape
      cases rest with
      | nil =>
        cases tail
        simp [Piece.quotedTail, other]
      | cons kept rest => exact absurd rfl (alone kept rest rfl)
    · simp [Piece.quotedTail_cons escape, other, ih clean.2]

theorem blockTail_written (clean : (Stretch.blockTail type).1.all Fragment.isOther = true) :
    Piece.blockTail (written nameOf type) =
      (written nameOf (Stretch.blockTail type).1, written nameOf (Stretch.blockTail type).2) := by
  fun_induction Stretch.blockTail type with
  | case1 => rfl
  | case2 rest => rfl
  | case3 fragment rest alone span after tail ih =>
    simp only [List.all_cons, Bool.and_eq_true] at clean
    obtain ⟨c, rfl⟩ := eq_other_of_isOther clean.1
    rw [tail] at ih
    have inside : c = '*' → (written nameOf rest).head? ≠ some '/' := by
      rintro rfl
      rcases rest with _ | ⟨_ | schema, rest⟩
      · nofun
      · rintro ⟨⟩
        exact alone rest rfl rfl
      · cases tail
        exact absurd clean.2 Bool.false_ne_true
    rw [written_other, Piece.blockTail_cons inside, ih clean.2]
    rfl

theorem all_written {p : Char → Bool} {q : Fragment → Bool} (same : ∀ c, q (.other c) = p c)
    (clean : span.all Fragment.isOther = true) (all : span.all q = true) :
    (written nameOf span).all p = true := by
  induction span with
  | nil => rfl
  | cons fragment rest ih =>
    rw [List.all_cons, Bool.and_eq_true] at clean all
    obtain ⟨c, rfl⟩ := eq_other_of_isOther clean.1
    rw [written_other, List.all_cons, ← same, all.1, ih clean.2 all.2]
    rfl

/-- A line without references ends where it does in the text. -/
theorem lineTail_written (clean : (type.takeWhile Stretch.inLine).all Fragment.isOther = true) :
    (written nameOf type).takeWhile Piece.inLine = written nameOf (type.takeWhile Stretch.inLine) ∧
      (written nameOf type).dropWhile Piece.inLine =
        written nameOf (type.dropWhile Stretch.inLine) := by
  have line : (written nameOf (type.takeWhile Stretch.inLine)).all Piece.inLine = true := by
    refine all_written (fun c => ?_) clean List.all_takeWhile
    by_cases feed : c = '\n'
    · simp [Stretch.inLine, Piece.inLine, feed]
    · rw [Stretch.inLine, Piece.inLine, bne_iff_ne.mpr feed, bne_iff_ne.mpr (by simpa using feed)]
  have stops : (written nameOf (type.dropWhile Stretch.inLine)).head?.all
      (fun c => !Piece.inLine c) = true := by
    have last := List.head?_dropWhile_not Stretch.inLine type
    cases after : type.dropWhile Stretch.inLine with
    | nil => rfl
    | cons fragment rest =>
      have feed : fragment = .other '\n' := by simpa [after, Stretch.inLine] using last
      rw [feed]
      rfl
  have whole : written nameOf type = written nameOf (type.takeWhile Stretch.inLine) ++
      written nameOf (type.dropWhile Stretch.inLine) := by
    rw [← written_append, List.takeWhile_append_dropWhile]
  rw [whole]
  exact ⟨takeWhile_append_of_stop _ line stops, dropWhile_append_of_stop _ line stops⟩

end Written

/-- Whether no reference stands in a quoted span or a comment. -/
def Stretch.isClean : Stretch → Bool
  | code _ => true
  | quoted span => span.all Fragment.isOther
  | comment span => span.all Fragment.isOther

/-- The pieces of the text of a stretch. -/
def Stretch.pieces (nameOf : Text → Text) : Stretch → List Piece
  | code fragment => (written nameOf [fragment]).map .code
  | quoted span => [.quoted (written nameOf span)]
  | comment span => [.comment (written nameOf span)]

def Stretch.ofPiece : Piece → Stretch
  | .code c => code (.other c)
  | .quoted span => quoted (Fragment.ofText span)
  | .comment span => comment (Fragment.ofText span)

/-- What can be written for a reference so that it is one word. -/
def isOneWord (text : Text) : Bool := text ≠ [] && text.all FoundWrapper.isNameChar

theorem isInert_of_isNameChar (c : Char) (named : FoundWrapper.isNameChar c = true) :
    Piece.isInert c = true := by
  simp only [Piece.isInert, Piece.isQuote, Bool.and_eq_true, Bool.not_eq_true', Bool.or_eq_false_iff,
    beq_eq_false_iff_ne, bne_iff_ne]
  refine ⟨⟨⟨?_, ?_⟩, ?_⟩, ?_⟩ <;> (rintro rfl; revert named; decide)

/-- A name goes on with no comment mark. -/
theorem head?_of_isOneWord {name : Text} (named : isOneWord name = true) (rest : Text) :
    (name ++ rest).head? ≠ some '/' ∧ (name ++ rest).head? ≠ some '*' := by
  simp only [isOneWord, Bool.and_eq_true, decide_eq_true_eq] at named
  rw [head?_append_of_ne_nil named.1]
  have letter := head?_all_of_all named.2
  constructor <;> (intro same; rw [same] at letter; revert letter; decide)

section Pieces

variable {nameOf : Text → Text} {type : List Fragment}

/-- A text goes on with a comment mark only if the type does, since names are written for references. -/
theorem head?_written (named : ∀ schema, .schema schema ∈ type → isOneWord (nameOf schema) = true)
    (line : ∀ tail, type ≠ .other '/' :: tail) (block : ∀ tail, type ≠ .other '*' :: tail) :
    (written nameOf type).head? ≠ some '/' ∧ (written nameOf type).head? ≠ some '*' := by
  cases type with
  | nil => simp
  | cons fragment tail =>
    cases fragment with
    | other c =>
      constructor
      · intro same
        exact line tail (by rw [Option.some.inj same])
      · intro same
        exact block tail (by rw [Option.some.inj same])
    | schema schema => exact head?_of_isOneWord (named schema List.mem_cons_self) _

/-- What begins a text is what begins the type, where no reference stands inside it. -/
theorem pieces_first {fragment : Fragment} {rest : List Fragment}
    (named : ∀ schema, .schema schema ∈ fragment :: rest → isOneWord (nameOf schema) = true)
    (clean : (Stretch.first fragment rest).1.isClean = true) :
    pieces (written nameOf (fragment :: rest)) =
      (Stretch.first fragment rest).1.pieces nameOf ++
        pieces (written nameOf (Stretch.first fragment rest).2) := by
  revert clean
  fun_cases Stretch.first fragment rest with
  | case1 line =>
    intro clean
    simp only [Stretch.isClean, List.all_cons, Bool.and_eq_true] at clean
    obtain ⟨stays, follows⟩ := @lineTail_written nameOf line clean.2.2
    rw [written_other, written_other, pieces_cons, Piece.first, stays, follows]
    rfl
  | case2 block =>
    intro clean
    simp only [Stretch.isClean, List.all_cons, Bool.and_eq_true] at clean
    rw [written_other, written_other, pieces_cons, Piece.first, blockTail_written clean.2.2]
    rfl
  | case3 c =>
    intro clean
    rename_i mark _ _
    simp only [Stretch.isClean, List.all_cons, Bool.and_eq_true] at clean
    rw [written_other, pieces_cons, Piece.first_of_quote mark,
      quotedTail_written (Piece.ne_backslash_of_isQuote mark) clean.2]
    rfl
  | case4 c _ line block =>
    intro _
    rename_i plain _
    have alone : c = '/' → (written nameOf rest).head? ≠ some '/' ∧
        (written nameOf rest).head? ≠ some '*' := fun slash =>
      head?_written (fun schema inside => named schema (List.mem_cons_of_mem _ inside))
        (fun tail same => line tail same slash) (fun tail same => block tail same slash)
    rw [written_other, pieces_cons, Piece.first_of_code (by simpa using plain) alone]
    rfl
  | case5 schema =>
    intro _
    have name := named schema List.mem_cons_self
    simp only [isOneWord, Bool.and_eq_true] at name
    rw [written_schema, pieces_append_code (all_imp isInert_of_isNameChar name.2)]
    simp [Stretch.pieces]

/-- Where references stand in code, the pieces of the text are those of the type, with the letters
of a name for each reference. -/
theorem pieces_written (named : ∀ schema, .schema schema ∈ type → isOneWord (nameOf schema) = true)
    (clean : ∀ stretch ∈ stretches type, stretch.isClean = true) :
    pieces (written nameOf type) = (stretches type).flatMap (Stretch.pieces nameOf) := by
  fun_induction stretches type with
  | case1 => rw [written_nil, pieces, List.flatMap_nil]
  | case2 fragment rest ih =>
    obtain ⟨here, later⟩ := List.forall_mem_cons.mp clean
    have ending : (Stretch.first fragment rest).2 <:+ fragment :: rest :=
      ⟨_, Stretch.first_append fragment rest⟩
    rw [pieces_first named here, List.flatMap_cons,
      ih (fun schema inside => named schema (ending.subset inside)) later]

end Pieces

/-- The letter of a name. -/
def Stretch.letter? : Stretch → Option Char
  | code (.other c) => if FoundWrapper.isNameChar c then some c else none
  | _ => none

theorem Stretch.eq_of_letter? {stretch : Stretch} {c : Char} (letter : stretch.letter? = some c) :
    stretch = code (.other c) ∧ FoundWrapper.isNameChar c = true := by
  unfold letter? at letter
  split at letter
  · split at letter
    · cases letter
      exact ⟨rfl, ‹_›⟩
    · contradiction
  · contradiction

inductive Token
  /-- A run of name characters. -/
  | word (name : Text)
  | reference (schema : Text)
  /-- A quoted span, a comment or a mark, as it stands between names. -/
  | between (stretch : Stretch)
  deriving DecidableEq, Repr

namespace Token

def isName : Token → Bool
  | word _ => true
  | reference _ => true
  | between _ => false

/-- Whether one of two neighbours is no name, so that they are read apart. -/
def Separate (left right : Token) : Prop := left.isName = true → right.isName = false

instance : DecidableRel Separate := fun left right =>
  inferInstanceAs (Decidable (left.isName = true → right.isName = false))

/-- A name character goes to the word that it stands before. -/
def addLetter (c : Char) : List Token → List Token
  | word name :: rest => word (c :: name) :: rest
  | rest => word [c] :: rest

/-- The token that a stretch is where it is no letter of a name. -/
def ofStretch : Stretch → Token
  | .code (.schema schema) => reference schema
  | stretch => between stretch

def add (stretch : Stretch) (rest : List Token) : List Token :=
  match stretch.letter? with
  | some c => addLetter c rest
  | none => ofStretch stretch :: rest

def ofStretches (found : List Stretch) : List Token := found.foldr add []

/-- Writes a name for a reference. -/
def named (nameOf : Text → Text) : Token → Token
  | reference schema => word (nameOf schema)
  | token => token

def text (nameOf : Text → Text) : Token → Text
  | word name => name
  | reference schema => nameOf schema
  | between stretch => written nameOf stretch.fragments

@[simp] theorem ofStretches_cons (stretch : Stretch) (rest : List Stretch) :
    ofStretches (stretch :: rest) = add stretch (ofStretches rest) := rfl

section OfStretches

variable {nameOf : Text → Text} {found : List Stretch} {rest : List Token}

theorem text_addLetter (nameOf : Text → Text) (c : Char) (rest : List Token) :
    (addLetter c rest).flatMap (text nameOf) = c :: rest.flatMap (text nameOf) := by
  rcases rest with _ | ⟨name | schema | stretch, rest⟩ <;> rfl

theorem text_ofStretch (nameOf : Text → Text) (stretch : Stretch) :
    (ofStretch stretch).text nameOf = written nameOf stretch.fragments := by
  rcases stretch with (c | schema) | span | span
  · rfl
  · exact (List.append_nil _).symm
  · rfl
  · rfl

/-- Tokens make up the text that their stretches do. -/
theorem text_ofStretches (nameOf : Text → Text) (found : List Stretch) :
    (ofStretches found).flatMap (text nameOf) =
      written nameOf (found.flatMap Stretch.fragments) := by
  induction found with
  | nil => rfl
  | cons stretch found ih =>
    rw [ofStretches_cons, add, List.flatMap_cons, written_append, ← ih]
    split
    · rename_i c letter
      rw [text_addLetter, (Stretch.eq_of_letter? letter).1]
      rfl
    · rw [List.flatMap_cons, text_ofStretch]

/-- What a token is made from: a word has letters, any other token is a stretch. -/
def MadeFrom (found : List Stretch) : Token → Prop
  | word name => name ≠ []
  | reference schema => .code (.schema schema) ∈ found
  | between stretch => stretch ∈ found

theorem madeFrom_ofStretch (stretch : Stretch) : (ofStretch stretch).MadeFrom [stretch] := by
  rcases stretch with (c | schema) | span | span <;> exact List.mem_singleton_self _

theorem MadeFrom.mono {token : Token} {more : List Stretch} (made : token.MadeFrom found)
    (inside : found ⊆ more) : token.MadeFrom more := by
  cases token with
  | word name => exact made
  | reference schema => exact inside made
  | between stretch => exact inside made

theorem mem_addLetter {c : Char} {token : Token} (member : token ∈ addLetter c rest) :
    (∃ name, token = word (c :: name)) ∨ token ∈ rest := by
  unfold addLetter at member
  split at member
  · rename_i name rest
    exact (List.mem_cons.mp member).imp (fun same => ⟨name, same⟩) (List.mem_cons_of_mem _)
  · exact (List.mem_cons.mp member).imp_left fun same => ⟨[], same⟩

theorem madeFrom_of_mem {token : Token} (member : token ∈ ofStretches found) :
    token.MadeFrom found := by
  induction found with
  | nil => contradiction
  | cons stretch found ih =>
    have kept : token ∈ ofStretches found → token.MadeFrom (stretch :: found) := fun later =>
      (ih later).mono (List.subset_cons_self stretch found)
    rw [ofStretches_cons, add] at member
    split at member
    · rcases mem_addLetter member with ⟨name, rfl⟩ | later
      · exact List.cons_ne_nil _ name
      · exact kept later
    · rcases List.mem_cons.mp member with rfl | later
      · exact (madeFrom_ofStretch stretch).mono (List.cons_subset.mpr ⟨List.mem_cons_self, List.nil_subset _⟩)
      · exact kept later

theorem mem_addLetter_of_mem {c : Char} {token : Token} (listed : token ∈ rest)
    (other : ∀ name, token ≠ word name) : token ∈ addLetter c rest := by
  unfold addLetter
  split
  · rename_i name rest
    exact List.mem_cons_of_mem _ ((List.mem_cons.mp listed).resolve_left (other name))
  · exact List.mem_cons_of_mem _ listed

theorem ofStretch_mem {stretch : Stretch} (inside : stretch ∈ found)
    (mark : stretch.letter? = none) : ofStretch stretch ∈ ofStretches found := by
  have other : ∀ name, ofStretch stretch ≠ word name := by
    rcases stretch with (c | schema) | span | span <;> exact fun _ => nofun
  induction found with
  | nil => contradiction
  | cons first found ih =>
    rw [ofStretches_cons, add]
    rcases List.mem_cons.mp inside with rfl | later
    · rw [mark]
      exact List.mem_cons_self
    · split
      · exact mem_addLetter_of_mem (ih later) other
      · exact List.mem_cons_of_mem _ (ih later)

theorem isChain_addLetter {c : Char} (chain : rest.IsChain Separate)
    (none : ∀ schema, reference schema ∉ rest) : (addLetter c rest).IsChain Separate := by
  rcases rest with _ | ⟨name | schema | stretch, rest⟩
  · exact .singleton _
  · obtain ⟨next, later⟩ := List.isChain_cons.mp chain
    exact later.cons next
  · exact absurd List.mem_cons_self (none schema)
  · exact .cons_cons (fun _ => rfl) chain

/-- Without references, names are read apart. -/
theorem isChain_ofStretches (plain : ∀ schema, .code (.schema schema) ∉ found) :
    (ofStretches found).IsChain Separate := by
  induction found with
  | nil => exact .nil
  | cons stretch found ih =>
    have chain := ih fun schema inside => plain schema (List.mem_cons_of_mem _ inside)
    have none : ∀ schema, reference schema ∉ ofStretches found := fun schema inside =>
      plain schema (List.mem_cons_of_mem _ (madeFrom_of_mem inside))
    rw [ofStretches_cons, add]
    split
    · exact isChain_addLetter chain none
    · have mark : (ofStretch stretch).isName = false := by
        rcases stretch with (c | schema) | span | span
        · rfl
        · exact absurd List.mem_cons_self (plain schema)
        · rfl
        · rfl
      exact chain.cons fun _ _ name => absurd (mark.symm.trans name) Bool.false_ne_true

end OfStretches

section Named

variable {nameOf : Text → Text} {found : List Stretch} {rest : List Token}

/-- Fragments without references are the characters of their text. -/
theorem ofText_written {span : List Fragment} (clean : span.all Fragment.isOther = true) :
    Fragment.ofText (written nameOf span) = span := by
  induction span with
  | nil => rfl
  | cons fragment rest ih =>
    rw [List.all_cons, Bool.and_eq_true] at clean
    obtain ⟨c, rfl⟩ := eq_other_of_isOther clean.1
    exact congrArg (Fragment.other c :: ·) (ih clean.2)

theorem letter?_of_isNameChar {c : Char} (letter : FoundWrapper.isNameChar c = true) :
    (Stretch.code (.other c)).letter? = some c :=
  if_pos letter

/-- The letters of a name before what is no word are one word. -/
theorem foldr_name {name : Text} (filled : name ≠ [])
    (letters : name.all FoundWrapper.isNameChar = true)
    (stops : ∀ next ∈ rest.head?, next.isName = false) :
    (name.map fun c => Stretch.code (.other c)).foldr add rest = word name :: rest := by
  induction name with
  | nil => exact absurd rfl filled
  | cons c name ih =>
    rw [List.all_cons, Bool.and_eq_true] at letters
    rw [List.map_cons, List.foldr_cons, add, letter?_of_isNameChar letters.1]
    cases name with
    | nil =>
      rcases rest with _ | ⟨other | schema | stretch, rest⟩
      · rfl
      · exact absurd (stops _ rfl) nofun
      · rfl
      · rfl
    | cons d name =>
      rw [ih (List.cons_ne_nil d name) letters.2]
      rfl

@[simp] theorem isName_named (nameOf : Text → Text) (token : Token) :
    (named nameOf token).isName = token.isName := by
  cases token <;> rfl

theorem addLetter_named {c : Char} (apart : (addLetter c rest).IsChain Separate) :
    addLetter c (rest.map (named nameOf)) = (addLetter c rest).map (named nameOf) := by
  rcases rest with _ | ⟨name | schema | stretch, rest⟩
  · rfl
  · rfl
  · exact absurd (List.isChain_cons_cons.mp apart).1 fun apart => absurd (apart rfl) nofun
  · rfl

theorem isChain_of_add {stretch : Stretch} (apart : (add stretch rest).IsChain Separate) :
    rest.IsChain Separate := by
  unfold add at apart
  split at apart
  · rcases rest with _ | ⟨name | schema | other, rest⟩
    · exact .nil
    · obtain ⟨next, later⟩ := List.isChain_cons.mp apart
      exact later.cons next
    · exact apart.tail
    · exact apart.tail
  · exact apart.tail

/-- With names for the references, the tokens are what they were, a word for each reference. -/
theorem ofStretches_pieces (clean : ∀ stretch ∈ found, stretch.isClean = true)
    (named : ∀ schema, .code (.schema schema) ∈ found → isOneWord (nameOf schema) = true)
    (apart : (ofStretches found).IsChain Separate) :
    ofStretches ((found.flatMap (Stretch.pieces nameOf)).map Stretch.ofPiece) =
      (ofStretches found).map (Token.named nameOf) := by
  induction found with
  | nil => rfl
  | cons stretch found ih =>
    obtain ⟨here, later⟩ := List.forall_mem_cons.mp clean
    rw [ofStretches_cons] at apart
    have left := ih later (fun schema inside => named schema (List.mem_cons_of_mem _ inside))
      (isChain_of_add apart)
    rw [List.flatMap_cons, List.map_append, ofStretches, List.foldr_append, ← ofStretches, left,
      ofStretches_cons]
    rcases stretch with (c | schema) | span | span
    · change add (.code (.other c)) _ = _
      by_cases letter : FoundWrapper.isNameChar c = true
      · simp only [add, letter?_of_isNameChar letter] at apart ⊢
        exact addLetter_named apart
      · simp only [add, Stretch.letter?, if_neg letter]
        rfl
    · have name := named schema List.mem_cons_self
      simp only [isOneWord, Bool.and_eq_true, decide_eq_true_eq] at name
      -- no name follows a reference, so that its letters are a word of their own
      have stops : ∀ next ∈ ((ofStretches found).map (Token.named nameOf)).head?,
          next.isName = false := by
        intro next listed
        obtain ⟨token, first, rfl⟩ := Option.map_eq_some_iff.mp (List.head?_map ▸ listed)
        rw [isName_named]
        exact (List.isChain_cons.mp apart).1 token first rfl
      have letters : (Stretch.pieces nameOf (.code (.schema schema))).map Stretch.ofPiece =
          (nameOf schema).map fun c => Stretch.code (.other c) := by
        simp [Stretch.pieces, Stretch.ofPiece, Function.comp_def]
      rw [letters, foldr_name name.1 name.2 stops]
      rfl
    · change between (.quoted (Fragment.ofText (written nameOf span))) :: _ = _
      rw [ofText_written here]
      rfl
    · change between (.comment (Fragment.ofText (written nameOf span))) :: _ = _
      rw [ofText_written here]
      rfl

end Named

end Token

/-- The tokens of a type. -/
def tokens (type : List Fragment) : List Token := Token.ofStretches (stretches type)

/-- The tokens of a text, in which no reference is known. -/
def tokensOf (text : Text) : List Token := Token.ofStretches ((pieces text).map Stretch.ofPiece)

section Tokens

variable {nameOf : Text → Text} {type : List Fragment}

theorem text_tokens (nameOf : Text → Text) (type : List Fragment) :
    (tokens type).flatMap (Token.text nameOf) = written nameOf type := by
  rw [tokens, Token.text_ofStretches, fragments_stretches]

theorem schema_mem_of_code {schema : Text} (listed : .code (.schema schema) ∈ stretches type) :
    .schema schema ∈ type := by
  rw [← fragments_stretches type]
  exact List.mem_flatMap.mpr ⟨_, listed, List.mem_singleton_self _⟩

/-- Where all spans and comments are clean, every reference is a token. -/
theorem reference_mem_tokens (clean : ∀ stretch ∈ stretches type, stretch.isClean = true)
    {schema : Text} (inside : .schema schema ∈ type) : .reference schema ∈ tokens type := by
  rw [← fragments_stretches type] at inside
  obtain ⟨stretch, listed, member⟩ := List.mem_flatMap.mp inside
  have here := clean stretch listed
  rcases stretch with fragment | span | span
  · rw [← List.mem_singleton.mp member] at listed
    exact Token.ofStretch_mem listed rfl
  · exact absurd (List.all_eq_true.mp here _ member) Bool.false_ne_true
  · exact absurd (List.all_eq_true.mp here _ member) Bool.false_ne_true

theorem isClean_of_between
    (between : ∀ stretch, .between stretch ∈ tokens type → stretch.isClean = true) :
    ∀ stretch ∈ stretches type, stretch.isClean = true := by
  intro stretch listed
  cases stretch with
  | code fragment => rfl
  | quoted span => exact between _ (Token.ofStretch_mem listed rfl)
  | comment span => exact between _ (Token.ofStretch_mem listed rfl)

/-- Where references stand in code and apart from names, names for them are words of the text, and
all other tokens are what they are in the type. -/
theorem tokensOf_written
    (named : ∀ schema, .schema schema ∈ type → isOneWord (nameOf schema) = true)
    (clean : ∀ stretch ∈ stretches type, stretch.isClean = true)
    (apart : (tokens type).IsChain Token.Separate) :
    tokensOf (written nameOf type) = (tokens type).map (Token.named nameOf) := by
  rw [tokensOf, pieces_written named clean]
  exact Token.ofStretches_pieces clean
    (fun schema listed => named schema (schema_mem_of_code listed)) apart

end Tokens

/-- What the tokens of a text are like: words have letters, and no reference is known. -/
def Token.OfText : Token → Prop
  | word name => name ≠ []
  | reference _ => False
  | between stretch => stretch.isClean = true

theorem Stretch.not_code_of_mem_ofPiece {found : List Piece} (schema : Text) :
    .code (.schema schema) ∉ found.map Stretch.ofPiece := by
  intro listed
  obtain ⟨piece, _, same⟩ := List.mem_map.mp listed
  cases piece <;> cases same

theorem Stretch.isClean_ofPiece (piece : Piece) : (Stretch.ofPiece piece).isClean = true := by
  cases piece <;> simp [Stretch.ofPiece, isClean, Fragment.ofText, Function.comp_def, Fragment.isOther]

theorem ofText_of_mem_tokensOf {text : Text} {token : Token} (member : token ∈ tokensOf text) :
    token.OfText := by
  have made := Token.madeFrom_of_mem member
  cases token with
  | word name => exact made
  | reference schema => exact Stretch.not_code_of_mem_ofPiece schema made
  | between stretch =>
    obtain ⟨piece, _, rfl⟩ := List.mem_map.mp made
    exact Stretch.isClean_ofPiece piece

theorem isChain_tokensOf (text : Text) : (tokensOf text).IsChain Token.Separate :=
  Token.isChain_ofStretches Stretch.not_code_of_mem_ofPiece

theorem isOther_of_mem_ofText {text : Text} {fragment : Fragment}
    (inside : fragment ∈ Fragment.ofText text) : fragment.isOther = true := by
  obtain ⟨c, _, rfl⟩ := List.mem_map.mp inside
  rfl

/-- Type text without references has the tokens of its text. -/
theorem tokens_ofText (text : Text) : tokens (Fragment.ofText text) = tokensOf text := by
  have none : ∀ schema, .schema schema ∉ Fragment.ofText text := fun schema inside =>
    absurd (isOther_of_mem_ofText inside) Bool.false_ne_true
  have clean : ∀ stretch ∈ stretches (Fragment.ofText text), stretch.isClean = true := by
    intro stretch listed
    have inner : ∀ fragment ∈ stretch.fragments, fragment.isOther = true := fun fragment inside =>
      isOther_of_mem_ofText (fragments_stretches (Fragment.ofText text) ▸
        List.mem_flatMap.mpr ⟨stretch, listed, inside⟩)
    cases stretch with
    | code fragment => rfl
    | quoted span => exact List.all_eq_true.mpr inner
    | comment span => exact List.all_eq_true.mpr inner
  have apart : (tokens (Fragment.ofText text)).IsChain Token.Separate :=
    Token.isChain_ofStretches fun schema listed => none schema (schema_mem_of_code listed)
  have read := @tokensOf_written id (Fragment.ofText text)
    (fun schema inside => absurd inside (none schema)) clean apart
  rw [written_ofText] at read
  rw [read]
  refine ((List.map_congr_left fun token listed => ?_).trans (List.map_id _)).symm
  cases token with
  | reference schema =>
    exact absurd (schema_mem_of_code (Token.madeFrom_of_mem listed)) (none schema)
  | word name => rfl
  | between stretch => rfl

end TypedClient
