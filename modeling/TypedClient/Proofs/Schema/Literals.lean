import TypedClient.Description.Basic
import TypedClient.Proofs.Piece.Quotes
import TypedClient.Proofs.TypeLiteral.Placement
import TypedClient.Proofs.Traversal

/-!
The literals of a schema. Main statement: reading a schema of any description succeeds, because
every quoted span in the type of a property has its closing quote, so that the text between the
quotes can be cut out.
-/

namespace TypedClient

open Text

theorem quotesClosed_of_mem_members {body : Text} {member : Member} (closed : QuotesClosed body)
    (listed : member ∈ members body) : QuotesClosed member.value := by
  obtain ⟨entry, inside, rfl⟩ := List.mem_map.mp listed
  have read := readFrom_of_mem_entriesFrom inside
  have opens : (readValue entry.following).1 <+: entry.following :=
    ⟨(readValue entry.following).2, splitValue_append 0 none [] entry.following⟩
  rw [read.value]
  exact (closed.of_stretch (opens.isInfix.trans read.following.isInfix)).trim

/-- Closed spans never stop the reader of a union. -/
theorem readUnion_of_closed {found : List Piece}
    (closed : ∀ span, .quoted span ∈ found → Piece.isClosedSpan span = true) (place : UnionPlace) :
    ∃ literals, readUnion place found = .ok literals := by
  induction found generalizing place with
  | nil => exact ⟨_, rfl⟩
  | cons piece rest ih =>
    have later := ih fun span member => closed span (List.mem_cons_of_mem _ member)
    cases piece with
    | comment span => exact later place
    | code c =>
      unfold readUnion
      split
      · exact later place
      · split
        · cases place with
          | opening => exact later .opening
          | afterBar => exact ⟨none, rfl⟩
          | afterLiteral => exact later .afterBar
        · exact ⟨none, rfl⟩
    | quoted span =>
      obtain ⟨_, literal, _, inside⟩ :=
        Piece.literal_of_isClosedSpan (closed span List.mem_cons_self)
      obtain ⟨more, read⟩ := later .afterLiteral
      rw [readUnion, inside, read]
      split
      · exact ⟨none, rfl⟩
      · exact ⟨_, rfl⟩

theorem unionLiterals_of_closed {text : Text} (closed : QuotesClosed text) :
    ∃ literals, unionLiterals text = .ok literals :=
  readUnion_of_closed closed .opening

theorem Property.ofMember_of_closed {value : Text} (closed : QuotesClosed value) (name : Text)
    (optional : Bool) :
    ∃ property, ofMember name value optional = .ok property ∧ QuotesClosed property.type := by
  obtain ⟨literals, read⟩ := unionLiterals_of_closed closed.trim
  exact ⟨⟨name, trim value, optional, literals⟩, by rw [ofMember, read]; rfl, closed.trim⟩

theorem Schema.ofBody_of_closed {body : Text} (closed : QuotesClosed body) (name : Text) :
    ∃ schema, ofBody name body = .ok schema ∧
      ∀ property ∈ schema.properties, QuotesClosed property.type := by
  have each : ∀ member ∈ (members (stripComments body)).filter
      (fun member => !isIndexSignature member.name), ∃ property,
      Property.ofMember member.name member.value member.optional = .ok property ∧
        QuotesClosed property.type := by
    intro member listed
    have inside := (List.mem_filter.mp listed).1
    exact Property.ofMember_of_closed
      (quotesClosed_of_mem_members closed.stripComments inside) _ _
  obtain ⟨properties, read, _, types⟩ := mapM_ok each
  exact ⟨⟨name, body, properties⟩, by rw [ofBody, read]; rfl, types⟩

namespace Description

/-- Reading a schema of a description never fails: every quoted span in the type of a property is
closed by its own quote, and what stands between the quotes can be cut out. A text that was not
cut out of a description can fail. -/
theorem schema?_literals_closed (text name : Text) :
    (∀ parsed ∈ (ofText text).value.schema? name, ∃ schema, parsed = .ok schema ∧
      ∀ property ∈ schema.properties, ∀ span, .quoted span ∈ pieces property.type →
        Piece.isClosedSpan span = true ∧
        ∃ quote literal, span = quote :: literal ++ [quote] ∧
          insideQuotes? span = some literal) ∧
    ∃ alone cut, unionLiterals alone = .error cut := by
  constructor
  · intro parsed found
    obtain ⟨body, located, rfl⟩ := Option.map_eq_some_iff.mp found
    obtain ⟨type, _, literal⟩ := Option.bind_eq_some_iff.mp located
    obtain ⟨schema, read, types⟩ := Schema.ofBody_of_closed (quotesClosed_of_braced? literal) name
    refine ⟨schema, read, fun property listed span member => ?_⟩
    have closed := types property listed span member
    exact ⟨closed, Piece.literal_of_isClosedSpan closed⟩
  · refine ⟨['"', 'é'], ⟨['"', 'é']⟩, ?_⟩
    have scanned : pieces ['"', 'é'] = [.quoted ['"', 'é']] := by decide +kernel
    rw [unionLiterals, scanned]
    rfl

/-- A schema with quotes in comments and in other quotes; a quote behind it is never closed. -/
def cupText : Text :=
  "interface components " ++ "\x7b schemas: \x7b Cup: \x7b kind: /* \" */ \"é\x7d\" | " ++
    "'a\"b'; // it's\n name: 'it\\'s' \x7d \x7d \x7d \"é"

def cupLiterals : List (Option (List Text)) :=
  [some ["é\x7d".toList, "a\"b".toList], some ["it\\'s".toList]]

theorem schema?_cup_literals :
    ∃ schema, (ofText cupText).value.schema? "Cup" = some (.ok schema) ∧
      schema.properties.map (·.literals) = cupLiterals ∧
      ∀ property ∈ schema.properties, ∀ span, .quoted span ∈ pieces property.type →
        Piece.isClosedSpan span = true ∧
        ∃ quote literal, span = quote :: literal ++ [quote] ∧
          insideQuotes? span = some literal := by
  have read : ((ofText cupText).value.schema? "Cup").map
      (fun parsed => parsed.toOption.map fun schema => schema.properties.map (·.literals)) =
        some (some cupLiterals) := by decide +kernel
  obtain ⟨parsed, found, literals⟩ := Option.map_eq_some_iff.mp read
  obtain ⟨schema, rfl, closed⟩ := (schema?_literals_closed cupText "Cup").1 parsed found
  exact ⟨schema, found, Option.some.inj literals, closed⟩

end Description

end TypedClient
