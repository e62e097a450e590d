import TypedClient.Module.Endpoints
import TypedClient.Module.Types
import TypedClient.Proofs.Text.Characters
import TypedClient.Schema.Property

/-!
Names that modules write in single quotes. Main statement: where backslashes and quotes are escaped a
name is read back from its literal, and where only quotes are escaped it is read back exactly if it
has no backslash. So the modules of types and of properties write one schema as the same literal
value exactly if its name has no backslash.
-/

namespace TypedClient

open Text Name

namespace Text

/-- The value of a literal up to the quote that closes it, and what follows that quote. A backslash
stands for the character behind it, and no literal goes on behind a line break. -/
def readQuoted? : Text → Option (Text × Text)
  | [] => none
  | ['\\'] => none
  | '\\' :: c :: rest => (readQuoted? rest).map fun (value, after) => (c :: value, after)
  | c :: rest =>
    if c = '\'' then some ([], rest)
    else if c = '\n' ∨ c = '\r' then none
    else (readQuoted? rest).map fun (value, after) => (c :: value, after)

/-- The value of a text that is one closed literal. -/
def literalValue? : Text → Option Text
  | '\'' :: inside =>
    match readQuoted? inside with
    | some (value, []) => some value
    | _ => none
  | _ => none

/-- A literal with a backslash before the characters that `special` picks out. -/
def inQuotes (special : Char → Bool) (text : Text) : Text :=
  '\'' :: escape special text ++ ['\'']

/-- No line breaks. -/
def OneLine (text : Text) : Prop := '\n' ∉ text ∧ '\r' ∉ text

section Reading

variable {special : Char → Bool} {c : Char} {text value rest : Text}

theorem readQuoted?_escaped (c : Char) (rest : Text) :
    readQuoted? ('\\' :: c :: rest) =
      (readQuoted? rest).map fun (value, after) => (c :: value, after) := by
  rw [readQuoted?]

theorem readQuoted?_plain (other : c ≠ '\\') (unquoted : c ≠ '\'') (free : c ≠ '\n' ∧ c ≠ '\r') :
    readQuoted? (c :: rest) =
      (readQuoted? rest).map fun (value, after) => (c :: value, after) := by
  rw [readQuoted?, if_neg unquoted, if_neg (not_or.mpr free)]
  · simp [other]
  · simp [other]

theorem oneLine_cons : OneLine (c :: text) ↔ (c ≠ '\n' ∧ c ≠ '\r') ∧ OneLine text := by
  unfold OneLine
  rw [List.mem_cons, List.mem_cons, not_or, not_or, ne_comm, ne_comm (b := '\r')]
  exact and_and_and_comm

/-- What is escaped is read back, whatever follows the closing quote. -/
theorem readQuoted?_escape (quote : special '\'' = true) (oneLine : OneLine text)
    (escaped : ∀ c ∈ text, c = '\\' → special c = true) (rest : Text) :
    readQuoted? (escape special text ++ '\'' :: rest) = some (text, rest) := by
  induction text with
  | nil => rfl
  | cons c text ih =>
    obtain ⟨free, oneLine⟩ := oneLine_cons.mp oneLine
    have later := ih oneLine fun d member => escaped d (List.mem_cons_of_mem c member)
    rw [escape_cons, List.append_assoc]
    by_cases marked : special c = true
    · rw [if_pos marked, List.cons_append, List.cons_append, List.nil_append, readQuoted?_escaped,
        later]
      rfl
    · have other : c ≠ '\\' := fun same => marked (escaped c List.mem_cons_self same)
      have unquoted : c ≠ '\'' := fun same => marked (same ▸ quote)
      rw [if_neg marked, List.cons_append, List.nil_append, readQuoted?_plain other unquoted free,
        later]
      rfl

theorem literalValue?_inQuotes (quote : special '\'' = true) (oneLine : OneLine text)
    (escaped : ∀ c ∈ text, c = '\\' → special c = true) :
    literalValue? (inQuotes special text) = some text := by
  have read := readQuoted?_escape quote oneLine escaped []
  rw [inQuotes, List.cons_append, literalValue?, read]

/-- A backslash that is not escaped takes the character behind it with it, be that the backslash of a
quote or the closing quote. -/
theorem readQuoted?_backslash (c : Char) (rest : Text) :
    readQuoted? ('\\' :: (escape (· == '\'') (c :: rest) ++ ['\''])) =
      if c = '\'' then some (['\\'], escape (· == '\'') rest ++ ['\''])
      else (readQuoted? (escape (· == '\'') rest ++ ['\''])).map
        fun (value, after) => (c :: value, after) := by
  rw [escape_cons]
  by_cases quote : c = '\''
  · subst quote
    rfl
  · have unquoted : (c == '\'') = false := beq_eq_false_iff_ne.mpr quote
    rw [if_neg quote, unquoted]
    rfl

theorem readQuoted?_quote (rest : Text) :
    readQuoted? (escape (· == '\'') ('\'' :: rest) ++ ['\'']) =
      (readQuoted? (escape (· == '\'') rest ++ ['\''])).map
        fun (value, after) => ('\'' :: value, after) := by
  rw [escape_cons]
  rfl

/-- Where only quotes are escaped, the value of a whole literal falls short of the text by a character
for every two backslashes. -/
def FallsShort (text : Text) : Prop :=
  ∀ value, readQuoted? (escape (· == '\'') text ++ ['\'']) = some (value, []) →
    2 * value.length + text.count '\\' ≤ 2 * text.length

/-- A literal whose first character is read in front of the others. -/
theorem FallsShort.step (short : FallsShort rest)
    (first : readQuoted? (escape (· == '\'') text ++ ['\'']) =
      (readQuoted? (escape (· == '\'') rest ++ ['\''])).map
        fun (value, after) => (c :: value, after))
    (counted : text.count '\\' + 2 * rest.length + 2 ≤ 2 * text.length + rest.count '\\') :
    FallsShort text := by
  intro value read
  rw [first] at read
  obtain ⟨⟨behind, after⟩, found, same⟩ := Option.map_eq_some_iff.mp read
  cases same
  have bound := short behind found
  rw [List.length_cons]
  omega

theorem fallsShort : ∀ {text : Text}, OneLine text → FallsShort text
  | [], _ => by
    intro value read
    cases read
    exact Nat.le_refl 0
  | c :: rest, oneLine => by
    obtain ⟨free, single⟩ := oneLine_cons.mp oneLine
    have short := fallsShort single
    by_cases quote : c = '\''
    · subst quote
      apply short.step (readQuoted?_quote rest)
      rw [List.count_cons_of_ne (by decide), List.length_cons]
      omega
    have plain : escape (· == '\'') (c :: rest) = c :: escape (· == '\'') rest := by
      rw [escape_cons, if_neg (by simpa using quote)]
      rfl
    by_cases other : c = '\\'
    · subst other
      cases rest with
      | nil =>
        intro value read
        rw [plain] at read
        contradiction
      | cons d rest =>
        have first := readQuoted?_backslash d rest
        rw [← List.cons_append, ← plain] at first
        by_cases closing : d = '\''
        · intro value read
          rw [first, if_pos closing] at read
          have more := congrArg Prod.snd (Option.some.inj read)
          exact absurd more (List.append_ne_nil_of_right_ne_nil _ (List.cons_ne_nil _ _))
        · rw [if_neg closing] at first
          apply (fallsShort (oneLine_cons.mp single).2).step first
          have counted : ('\\' :: d :: rest).count '\\' ≤ rest.count '\\' + 2 := by
            rw [List.count_cons_self, List.count_cons]
            split <;> omega
          rw [List.length_cons, List.length_cons]
          omega
    · have first := @readQuoted?_plain c (escape (· == '\'') rest ++ ['\'']) other quote free
      rw [← List.cons_append, ← plain] at first
      apply short.step first
      rw [List.count_cons_of_ne other, List.length_cons]
      omega

/-- Where only quotes are escaped, exactly the texts without a backslash are read back. -/
theorem literalValue?_inQuotes_iff (oneLine : OneLine text) :
    literalValue? (inQuotes (· == '\'') text) = some text ↔ '\\' ∉ text := by
  constructor
  · intro value member
    have read : readQuoted? (escape (· == '\'') text ++ ['\'']) = some (text, []) := by
      rw [inQuotes, List.cons_append, literalValue?] at value
      split at value
      · rename_i found
        rw [found, Option.some.inj value]
      · contradiction
    have bound := fallsShort oneLine text read
    have present := List.count_pos_iff.mpr member
    omega
  · intro absent
    apply literalValue?_inQuotes rfl oneLine
    intro c member slash
    exact absurd (slash ▸ member) absent

end Reading

end Text

variable {name : Text}

theorem propertyKey_quoted (quoted : isPlain name = false) :
    propertyKey name = inQuotes (· == '\'') name := by
  rw [propertyKey, quoted, if_neg Bool.false_ne_true]
  rfl

theorem Endpoint.render_static {endpoint : Endpoint} (static : endpoint.isDynamic = false) :
    endpoint.render = "export const " ++ endpoint.name ++ " = " ++
      inQuotes (· == '\'') endpoint.path ++ ";" := by
  have opening : " = '".toList = " = ".toList ++ ['\''] := rfl
  have closing : "';".toList = '\'' :: ";".toList := rfl
  rw [render, static, if_neg Bool.false_ne_true, opening, closing, inQuotes]
  simp only [List.append_assoc, List.cons_append, List.nil_append]

theorem Module.schemaAccess_eq (schema : Text) :
    schemaAccess schema = "components['schemas'][" ++ inQuotes (· == '\'') schema ++ "]" := by
  have opening : "components['schemas']['".toList = "components['schemas'][".toList ++ ['\''] := by
    decide
  have closing : "']".toList = '\'' :: "]".toList := rfl
  unfold schemaAccess inQuotes
  rw [opening, closing]
  simp only [List.append_assoc, List.cons_append, List.nil_append]

theorem quotedIndex_eq (name : Text) :
    quotedIndex name = "[" ++ inQuotes (fun c => c == '\\' || c == '\'') name ++ "]" := by
  have closing : "']".toList = '\'' :: "]".toList := rfl
  rw [quotedIndex, closing, inQuotes]
  simp only [List.append_assoc, List.cons_append, List.nil_append]
  rfl

theorem Property.access_infix (schema : Text) (property : Property) :
    ("components['schemas']" ++ quotedIndex schema : Text) <:+: property.accessType schema := by
  have opens : ("components['schemas']" ++ quotedIndex schema : Text) <+:
      "components['schemas']" ++ quotedIndex schema ++ quotedIndex property.name :=
    List.prefix_append _ _
  apply opens.isInfix.trans
  unfold accessType
  split
  · exact ⟨"NonNullable<".toList, ['>'], rfl⟩
  · exact List.infix_rfl

/-- Names as the modules write them in quotes: as a key, as a path without placeholders, and as a
schema in the modules of types and of properties. -/
theorem literals_read_back_iff (oneLine : OneLine name) :
    (isPlain name = false → (literalValue? (propertyKey name) = some name ↔ '\\' ∉ name)) ∧
    (∀ endpoint : Endpoint, endpoint.isDynamic = false → endpoint.path = name → ∃ literal,
      endpoint.render = "export const " ++ endpoint.name ++ " = " ++ literal ++ ";" ∧
        (literalValue? literal = some name ↔ '\\' ∉ name)) ∧
    ∃ inTypes inProperties,
      Module.schemaAccess name = "components['schemas'][" ++ inTypes ++ "]" ∧
      (literalValue? inTypes = some name ↔ '\\' ∉ name) ∧
      quotedIndex name = "[" ++ inProperties ++ "]" ∧
      (∀ property : Property,
        ("components['schemas']" ++ quotedIndex name : Text) <:+: property.accessType name) ∧
      literalValue? inProperties = some name ∧
      (literalValue? inTypes = literalValue? inProperties ↔ '\\' ∉ name) := by
  have inTypes := literalValue?_inQuotes_iff oneLine
  have inProperties : literalValue? (inQuotes (fun c => c == '\\' || c == '\'') name) = some name :=
    literalValue?_inQuotes rfl oneLine fun c _ slash => by simp [slash]
  refine ⟨fun quoted => ?_, fun endpoint static path => ?_, _, _, Module.schemaAccess_eq name,
    inTypes, quotedIndex_eq name, fun property => property.access_infix name, inProperties, ?_⟩
  · rwa [propertyKey_quoted quoted]
  · subst path
    exact ⟨_, Endpoint.render_static static, inTypes⟩
  · rw [inProperties, inTypes]

/-- A name with a quote. -/
def quotedName : Text := "o'clock"

theorem quotedName_read_back :
    OneLine quotedName ∧ isPlain quotedName = false ∧
    literalValue? (propertyKey quotedName) = some quotedName ∧
    ∃ inTypes inProperties,
      Module.schemaAccess quotedName = "components['schemas'][" ++ inTypes ++ "]" ∧
      quotedIndex quotedName = "[" ++ inProperties ++ "]" ∧
      literalValue? inTypes = literalValue? inProperties := by
  have oneLine : OneLine quotedName := by
    unfold OneLine
    decide
  have quoted : isPlain quotedName = false := by decide
  have free : '\\' ∉ quotedName := by decide
  obtain ⟨key, _, inTypes, inProperties, types, _, properties, _, _, same⟩ :=
    literals_read_back_iff oneLine
  exact ⟨oneLine, quoted, (key quoted).mpr free, inTypes, inProperties, types, properties,
    same.mpr free⟩

/-- A name with a backslash, and a path with one. -/
def slashedName : Text := "a\\b"

def slashedPath : Endpoint := ⟨"read", .get, slashedName, "GET_A_B", []⟩

/-- Only the module of properties writes a backslash so that it is read back; at the end of a name it
leaves the literal open everywhere else. -/
theorem backslash_not_read_back :
    OneLine slashedName ∧ isPlain slashedName = false ∧ slashedPath.isDynamic = false ∧
    literalValue? (propertyKey slashedName) = some "ab".toList ∧
    slashedPath.render = "export const GET_A_B = 'a\\b';".toList ∧
    Module.schemaAccess slashedName = "components['schemas']['a\\b']".toList ∧
    literalValue? "'a\\b'".toList = some "ab".toList ∧
    quotedIndex slashedName = "['a\\\\b']".toList ∧
    literalValue? "'a\\\\b'".toList = some slashedName ∧
    literalValue? (propertyKey "a\\") = none := by
  unfold OneLine
  decide +kernel

end TypedClient
