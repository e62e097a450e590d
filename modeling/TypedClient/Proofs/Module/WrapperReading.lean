import TypedClient.Proofs.Module.WrapperContents
import TypedClient.Proofs.Text.Lines

/-!
How the parts of a wrapper are read back. Each reader is followed over text that was put together
for it, whatever comes after that text.
-/

namespace TypedClient

open Text

/-- The length of the run of stars at the end of a text. -/
def endStars (text : Text) : Nat := (text.reverse.takeWhile (· == '*')).length

theorem endStars_append {front : Text} (even : endStars front % 2 = 0) (back : Text) :
    endStars (front ++ back) % 2 = endStars back % 2 := by
  unfold endStars at even ⊢
  rw [List.reverse_append, List.takeWhile_append]
  split
  · rename_i whole
    rw [List.length_append, whole]
    omega
  · rfl

namespace FoundWrapper

section Comment

variable {inside gap line rest : Text}

theorem docTail?_cons {c : Char} (other : c ≠ '*') (rest : Text) :
    docTail? (c :: rest) = (docTail? rest).map fun (doc, after) => (c :: doc, after) := by
  rw [docTail?] <;> simp_all

theorem docTail?_append {plain : Text} (free : '*' ∉ plain) (rest : Text) :
    docTail? (plain ++ rest) = (docTail? rest).map fun (doc, after) => (plain ++ doc, after) := by
  induction plain with
  | nil => simp
  | cons c plain ih =>
    rw [List.mem_cons, not_or] at free
    rw [List.cons_append, docTail?_cons (Ne.symm free.1), ih free.2, Option.map_map]
    rfl

theorem docTail?_docLine {line : Text} (free : '*' ∉ line) (rest : Text) :
    docTail? (Module.docLine [] line ++ rest) =
      (docTail? rest).map fun (doc, after) => (Module.docLine [] line ++ doc, after) := by
  have whole : ∀ tail,
      Module.docLine [] line ++ tail = ' ' :: '*' :: ' ' :: (line ++ '\n' :: tail) := by
    intro tail
    simp only [Module.docLine, List.append_assoc]
    rfl
  have tail : '*' ∉ line ++ ['\n'] := by simpa using free
  rw [whole, docTail?_cons (by decide), docTail?, List.append_cons, docTail?_append tail,
    Option.map_map, Option.map_map]
  · refine congrArg (Option.map · _) (funext fun (doc, after) => ?_)
    simp [whole]
  · simp

theorem docTail?_docLines {lines : List Text} (free : ∀ line ∈ lines, '*' ∉ line) (rest : Text) :
    docTail? (lines.flatMap (Module.docLine []) ++ rest) =
      (docTail? rest).map fun (doc, after) =>
        (lines.flatMap (Module.docLine []) ++ doc, after) := by
  induction lines with
  | nil => simp
  | cons line lines ih =>
    rw [List.flatMap_cons, List.append_assoc, docTail?_docLine (free line List.mem_cons_self),
      ih fun other member => free other (List.mem_cons_of_mem _ member), Option.map_map]
    refine congrArg (Option.map · _) (funext fun (doc, after) => ?_)
    simp

/-- What stands between the marks of a doc comment of these lines. -/
def docInside (lines : List Text) : Text := '\n' :: lines.flatMap (Module.docLine []) ++ [' ']

/-- A doc comment on a line of its own is read whole. -/
theorem readDoc?_docComment {lines : List Text} {line : Text}
    (free : ∀ line ∈ lines, '*' ∉ line) (starts : line.head?.all (fun c => !isBlank c) = true) :
    readDoc? (Module.docComment lines 0 ++ '\n' :: line) = some (docInside lines, line) := by
  have opens : Module.docComment lines 0 ++ '\n' :: line =
      "/**".toList ++ '\n' ::
        (lines.flatMap (Module.docLine []) ++ ' ' :: '*' :: '/' :: '\n' :: line) := by
    simp only [Module.docComment, List.append_assoc]
    rfl
  have closes : docTail? ('\n' :: (lines.flatMap (Module.docLine []) ++
      ' ' :: '*' :: '/' :: '\n' :: line)) = some (docInside lines, '\n' :: line) := by
    rw [docTail?_cons (by decide), docTail?_docLines free, docTail?_cons (by decide)]
    rfl
  have blank : ('\n' :: line).takeWhile isBlank = ['\n'] :=
    takeWhile_append_of_stop ['\n'] (by decide) starts
  have next : trimStart ('\n' :: line) = line :=
    dropWhile_append_of_stop ['\n'] (by decide) starts
  rw [readDoc?, opens, isPrefixOf?_append]
  simp [closes, blank, next]

theorem docTail?_pair {c : Char} (other : c ≠ '/') (rest : Text) :
    docTail? ('*' :: c :: rest) =
      (docTail? rest).map fun (doc, after) => ('*' :: c :: doc, after) := by
  rw [docTail?]
  exact other

theorem map_append_eq_some (front : Text) {tail rest : Text} {read : Option (Text × Text)} :
    (read.map fun (doc, after) => (front ++ doc, after)) = some (front ++ tail, rest) ↔
      read = some (tail, rest) := by
  rcases read with _ | ⟨doc, after⟩ <;> simp

/-- A doc comment is closed by its first end mark exactly if an even run of stars stands before. -/
theorem docTail?_iff (first : ¬ ['*', '/'] <:+: inside) (rest : Text) :
    docTail? (inside ++ '*' :: '/' :: rest) = some (inside, rest) ↔ endStars inside % 2 = 0 := by
  fun_induction docTail? inside with
  | case1 => exact iff_of_true rfl rfl
  | case2 tail => exact absurd ⟨[], tail, rfl⟩ first
  | case3 c tail other ih =>
    have later : ¬ ['*', '/'] <:+: tail := fun inner => first (inner.trans ⟨['*', c], [], by simp⟩)
    -- the star takes `c` with it, which leaves the parity of the run at the end as it is
    have pair : endStars ['*', c] % 2 = 0 := by
      by_cases star : c = '*' <;> simp [endStars, star]
    have same := endStars_append pair tail
    rw [List.cons_append, List.cons_append, docTail?_pair (fun slash => other slash)]
    exact ((map_append_eq_some ['*', c]).trans (ih later)).trans (by rw [← same]; rfl)
  | case4 =>
    rw [List.singleton_append, docTail?_pair (by decide)]
    simp [endStars]
  | case5 c tail ended paired alone ih =>
    have later : ¬ ['*', '/'] <:+: tail := fun inner => first (inner.trans ⟨[c], [], by simp⟩)
    have plain : c ≠ '*' := by
      rintro rfl
      cases tail with
      | nil => exact alone rfl rfl
      | cons d tail => exact paired d tail rfl rfl
    have same := endStars_append (by simp [endStars, plain] : endStars [c] % 2 = 0) tail
    rw [List.cons_append, docTail?_cons plain]
    exact ((map_append_eq_some [c]).trans (ih later)).trans (by rw [← same]; rfl)

theorem docTail?_eq_append {text doc after : Text} (read : docTail? text = some (doc, after)) :
    text = doc ++ '*' :: '/' :: after := by
  fun_induction docTail? text generalizing doc after with
  | case1 => contradiction
  | case2 rest => cases read; rfl
  | case3 c rest _ ih =>
    obtain ⟨⟨inner, _⟩, eq, same⟩ := Option.map_eq_some_iff.mp read
    cases same
    rw [ih eq]
    rfl
  | case4 => contradiction
  | case5 c rest _ _ _ ih =>
    obtain ⟨⟨inner, _⟩, eq, same⟩ := Option.map_eq_some_iff.mp read
    cases same
    rw [ih eq]
    rfl

/-- The text of a doc comment with what stands before the next line. -/
def docText (inside gap : Text) : Text := "/**".toList ++ (inside ++ '*' :: '/' :: gap)

theorem readDoc?_iff {left : Text} (first : ¬ ['*', '/'] <:+: inside)
    (blank : gap.all isBlank = true) (ends : gap.getLast? = some '\n')
    (starts : line.head?.all (fun c => !isBlank c) = true) :
    readDoc? (docText inside gap ++ line) = some (inside, left) ↔
      endStars inside % 2 = 0 ∧ left = line := by
  have opens : docText inside gap ++ line =
      "/**".toList ++ (inside ++ '*' :: '/' :: (gap ++ line)) := by
    simp [docText]
  have between : (gap ++ line).takeWhile isBlank = gap := takeWhile_append_of_stop gap blank starts
  have next : trimStart (gap ++ line) = line := dropWhile_append_of_stop gap blank starts
  rw [← docTail?_iff first (gap ++ line), readDoc?, opens, isPrefixOf?_append]
  simp only [bind, Option.bind_some]
  constructor
  · intro read
    obtain ⟨⟨doc, after⟩, tail, read⟩ := Option.bind_eq_some_iff.mp read
    dsimp only at read
    split at read
    · cases read
      have whole := docTail?_eq_append tail
      have same := (List.cons.inj (List.cons.inj (List.append_cancel_left whole)).2).2
      exact ⟨by rw [tail, same], by rw [← same, next]⟩
    · contradiction
  · rintro ⟨tail, rfl⟩
    simp [tail, between, next, ends]

theorem operationIn?_append {plain : Text} (free : '@' ∉ plain) (rest : Text) :
    operationIn? (plain ++ rest) = operationIn? rest := by
  induction plain with
  | nil => rfl
  | cons c plain ih =>
    rw [List.mem_cons, not_or] at free
    have other : "@operationId".toList.isPrefixOf? (c :: (plain ++ rest)) = none := by
      have step : "@operationId".toList.isPrefixOf? (c :: (plain ++ rest)) =
          if '@' == c then "operationId".toList.isPrefixOf? (plain ++ rest) else none := rfl
      rw [step, if_neg (by simpa using free.1)]
    rw [List.cons_append, operationIn?, other]
    exact ih free.2

/-- The operation id is found behind lines that hold no tag. -/
theorem operationIn?_docInside {lines : List Text} {id : Text} (free : ∀ line ∈ lines, '@' ∉ line)
    (filled : id ≠ []) (solid : id.all (fun c => !isBlank c) = true) :
    operationIn? (docInside (lines ++ ["@operationId " ++ id])) = some id := by
  have whole : docInside (lines ++ ["@operationId " ++ id]) =
      ('\n' :: lines.flatMap (Module.docLine []) ++ [' ', '*', ' ']) ++
        ("@operationId".toList ++ ' ' :: (id ++ '\n' :: [' '])) := by
    simp [docInside, Module.docLine]
  have bare : '@' ∉ '\n' :: lines.flatMap (Module.docLine []) ++ [' ', '*', ' '] := by
    simpa [Module.docLine] using free
  have start : trimStart (' ' :: (id ++ ['\n', ' '])) = id ++ ['\n', ' '] := by
    cases id with
    | nil => exact absurd rfl filled
    | cons c rest =>
      rw [List.all_cons, Bool.and_eq_true] at solid
      exact dropWhile_append_of_stop [' '] (by decide) (by simpa using solid.1)
  have stop : (id ++ ['\n', ' ']).takeWhile (!isBlank ·) = id :=
    takeWhile_append_of_stop id solid (by decide)
  have first : "@operationId".toList ++ ' ' :: (id ++ ['\n', ' ']) =
      '@' :: ("operationId".toList ++ ' ' :: (id ++ ['\n', ' '])) := rfl
  rw [whole, operationIn?_append bare, first, operationIn?, ← first, isPrefixOf?_append]
  have blank : isBlank ' ' = true := by decide
  simp [start, stop, filled, blank]

end Comment

section Head

variable {name type : Text}

/-- A name is read as far as it goes, if it starts as a name may. -/
theorem readName?_eq (filled : name ≠ []) (chars : name.all isNameChar = true) (rest : Text) :
    readName? ("export const ".toList ++ (name ++ (" = async (".toList ++ rest))) =
      if name.head?.any Name.startsIdentifier then some (name, rest) else none := by
  have stops : (" = async (".toList ++ rest).head?.all (fun c => !isNameChar c) = true := by
    change (!isNameChar ' ') = true
    decide
  rw [readName?, isPrefixOf?_append]
  simp only [bind, Option.bind_some]
  rw [head?_append_of_ne_nil filled, takeWhile_append_of_stop name chars stops,
    dropWhile_append_of_stop name chars stops]
  rfl

theorem readName?_append (plain : Name.isPlain name = true) (rest : Text) :
    readName? ("export const ".toList ++ (name ++ (" = async (".toList ++ rest))) =
      some (name, rest) := by
  have chars : name.all isNameChar = true := Name.all_of_isPlain (by decide) plain
  have filled : name ≠ [] := Name.ne_nil_of_isPlain plain
  have first : name.head?.any Name.startsIdentifier = true := by
    cases name with
    | nil => contradiction
    | cons c tail =>
      rw [Name.isPlain, Bool.and_eq_true] at plain
      exact plain.1
  rw [readName?_eq filled chars, if_pos first]

theorem readReturn?_append (free : type.all (fun c => c != '\n' && c != '>') = true) (rest : Text) :
    readReturn? (type ++ ("> => \x7b".toList ++ rest)) = some (type, rest) := by
  induction type with
  | nil => rfl
  | cons c type ih =>
    simp only [List.all_cons, Bool.and_eq_true, bne_iff_ne] at free
    rw [List.cons_append, readReturn?, if_neg (by simpa using free.1.1),
      if_neg (by simpa using free.1.2), ih free.2]
    rfl

theorem readResult?_append (free : type.all (fun c => c != '\n' && c != '>') = true) (rest : Text) :
    readResult? (": Promise<".toList ++ (type ++ ("> => \x7b".toList ++ rest))) =
      some (some type, rest) := by
  have start : readResult? (": Promise<".toList ++ (type ++ ("> => \x7b".toList ++ rest))) =
      (readReturn? (type ++ ("> => \x7b".toList ++ rest))).bind fun (type, body) =>
        some (some type, body) := rfl
  rw [start, readReturn?_append free]
  rfl

end Head

section Result

variable {word front : Text}

theorem skip?_cut {d : Char} (solid : isBlank d = false) (other : d ∉ word) (front rest : Text) :
    skip? word (front ++ d :: rest) = (skip? word front).map (· ++ d :: rest) := by
  rw [skip?, trimStart, dropWhile_cut solid, isPrefixOf?_cut other]
  rfl

theorem isPrefixOf?_arrow (c d : Char) (rest : Text) : "=>".toList.isPrefixOf? (c :: d :: rest) =
    if c = '=' ∧ d = '>' then some rest else none := by
  have step : "=>".toList.isPrefixOf? (c :: d :: rest) =
      if '=' == c then if '>' == d then some rest else none else none := rfl
  rw [step]
  by_cases first : c = '='
  · by_cases second : d = '>'
    · simp [first, second]
    · simp [first, second, Ne.symm second]
  · simp [first, Ne.symm first]

/-- A text without an arrow and a brace has none where what comes behind does not go on with one. -/
theorem arrow?_cut (rest : Text) (unopened : skip? "\x7b" rest = none) (none : arrow? front = none) :
    arrow? (front ++ '>' :: rest) = Option.none := by
  have start : skip? "=>" (front ++ '>' :: rest) =
      "=>".toList.isPrefixOf? (trimStart front ++ '>' :: rest) := by
    rw [skip?, trimStart, dropWhile_cut (by decide)]
    rfl
  rw [arrow?, skip?] at none
  rw [arrow?, start]
  generalize trimStart front = text at none
  rcases text with _ | ⟨c, _ | ⟨d, inner⟩⟩
  · rfl
  · rw [List.cons_append, List.nil_append, isPrefixOf?_arrow]
    split
    · exact unopened
    · rfl
  · rw [isPrefixOf?_arrow] at none
    rw [List.cons_append, List.cons_append, isPrefixOf?_arrow]
    split at none
    · rename_i same
      have inside : skip? "\x7b" inner = Option.none := none
      rw [if_pos same]
      simp only [bind, Option.bind_some]
      rw [skip?_cut (by decide) (by decide), inside]
      rfl
    · rename_i other
      rw [if_neg other]
      rfl

theorem skip?_append {after : Text} (filled : word.head?.any (fun c => !isBlank c) = true)
    (read : skip? word front = some after) (rest : Text) :
    skip? word (front ++ rest) = some (after ++ rest) := by
  have whole : trimStart front = word ++ after := eq_append_of_isPrefixOf? read
  have stops : trimStart (front ++ rest) = trimStart front ++ rest := by
    obtain ⟨blanks, blank, parts⟩ := exists_blanks_trimStart front
    have starts : (trimStart front ++ rest).head?.all (fun c => !isBlank c) = true := by
      rw [whole]
      cases word with
      | nil => contradiction
      | cons c word => exact filled
    have same : trimStart (blanks ++ (trimStart front ++ rest)) = trimStart front ++ rest :=
      dropWhile_append_of_stop blanks blank starts
    rwa [← List.append_assoc, ← parts] at same
  rw [skip?, stops, whole, List.append_assoc, isPrefixOf?_append]

theorem arrow?_append {after : Text} (read : arrow? front = some after) (rest : Text) :
    arrow? (front ++ rest) = some (after ++ rest) := by
  obtain ⟨inner, first, second⟩ := Option.bind_eq_some_iff.mp read
  rw [arrow?, skip?_append rfl first]
  exact skip?_append rfl second rest

/-- A return type is read up to its end exactly if no arrow and brace follow a `>` in it. -/
theorem readReturn?_iff {type : Text} (line : '\n' ∉ type) (rest : Text) :
    readReturn? (type ++ ("> => \x7b".toList ++ rest)) = some (type, rest) ↔
      readReturn? type = none := by
  induction type with
  | nil => exact iff_of_true rfl rfl
  | cons c type ih =>
    rw [List.mem_cons, not_or] at line
    have feed : ¬ (c == '\n') = true := by simpa using Ne.symm line.1
    have unopened : skip? "\x7b" (" => \x7b".toList ++ rest) = none := rfl
    have later : ∀ found : Option (Text × Text),
        (found.map fun (type, body) => (c :: type, body)) = some (c :: type, rest) ↔
          found = some (type, rest) := fun _ => map_append_eq_some [c]
    rw [List.cons_append, readReturn?, readReturn?, if_neg feed, if_neg feed]
    by_cases closes : (c == '>') = true
    · rw [if_pos closes, if_pos closes]
      cases arrow : arrow? type with
      | some body =>
        rw [arrow?_append arrow]
        simp
      | none =>
        rw [show type ++ ("> => \x7b".toList ++ rest) = type ++ '>' :: (" => \x7b".toList ++ rest)
          from rfl, arrow?_cut _ unopened arrow]
        exact ((later _).trans (ih line.2)).trans Option.map_eq_none_iff.symm
    · rw [if_neg closes, if_neg closes]
      exact ((later _).trans (ih line.2)).trans Option.map_eq_none_iff.symm

theorem readReturn?_eq_append {text type body : Text} (read : readReturn? text = some (type, body)) :
    ∃ after, text = type ++ '>' :: after ∧ arrow? after = some body := by
  induction text generalizing type body with
  | nil => contradiction
  | cons c rest ih =>
    rw [readReturn?] at read
    split at read
    · contradiction
    · split at read
      · rename_i arrow
        cases read
        split at arrow
        · rename_i closes
          rw [eq_of_beq closes]
          exact ⟨rest, rfl, arrow⟩
        · contradiction
      · obtain ⟨⟨inner, _⟩, later, same⟩ := Option.map_eq_some_iff.mp read
        cases same
        obtain ⟨after, whole, arrow⟩ := ih later
        exact ⟨after, congrArg (c :: ·) whole, arrow⟩

end Result

section Body

theorem readBody?_append {line : Text} (free : '\n' ∉ line) (rest : Text) :
    readBody? (line ++ rest) = (readBody? rest).map fun (body, after) => (line ++ body, after) := by
  induction line with
  | nil => simp
  | cons c line ih =>
    rw [List.mem_cons, not_or] at free
    rw [List.cons_append, readBody?, if_neg (by simpa using Ne.symm free.1), ih free.2,
      Option.map_map]
    rfl

/-- The lines of a body, each behind a line feed. -/
def bodyLines (lines : List Text) : Text := lines.flatMap ('\n' :: ·)

theorem bodyLines_starts (lines : List Text) (rest : Text) :
    ∃ more, bodyLines lines ++ ("\n\x7d;".toList ++ rest) = '\n' :: more := by
  cases lines with
  | nil => exact ⟨_, rfl⟩
  | cons line lines => exact ⟨_, rfl⟩

/-- A body goes on up to the first line that starts as the end does. -/
theorem readBody?_lines {lines : List Text} (free : ∀ line ∈ lines, '\n' ∉ line)
    (inside : ∀ line ∈ lines, "\x7d;".toList.isPrefixOf? line = none) (rest : Text) :
    readBody? (bodyLines lines ++ ("\n\x7d;".toList ++ rest)) =
      some (bodyLines lines ++ ['\n'], rest) := by
  induction lines with
  | nil => rfl
  | cons line lines ih =>
    obtain ⟨freeLine, freeLines⟩ := List.forall_mem_cons.mp free
    obtain ⟨insideLine, insideLines⟩ := List.forall_mem_cons.mp inside
    have left := ih freeLines insideLines
    obtain ⟨more, starts⟩ := bodyLines_starts lines rest
    have unended : "\x7d;".toList.isPrefixOf? (line ++ '\n' :: more) = none := by
      rw [isPrefixOf?_cut (by decide), insideLine]
      rfl
    have whole : bodyLines (line :: lines) ++ ("\n\x7d;".toList ++ rest) =
        '\n' :: (line ++ '\n' :: more) := by
      rw [← starts]
      simp [bodyLines]
    have step : readBody? ('\n' :: (line ++ '\n' :: more)) =
        (readBody? (line ++ '\n' :: more)).map fun (body, after) => ('\n' :: body, after) := by
      rw [readBody?, if_pos (by decide), unended]
    rw [whole, step, readBody?_append freeLine, ← starts, left]
    simp [bodyLines]

/-- Indented lines lie within the body. -/
theorem readBody?_indented {lines : List Text} (free : ∀ line ∈ lines, '\n' ∉ line) (rest : Text) :
    readBody? (lines.flatMap (fun line => '\n' :: (' ' :: line)) ++ ("\n\x7d;".toList ++ rest)) =
      some (lines.flatMap (fun line => '\n' :: (' ' :: line)) ++ ['\n'], rest) := by
  have whole : lines.flatMap (fun line => '\n' :: (' ' :: line)) = bodyLines (lines.map (' ' :: ·)) := by
    rw [bodyLines, List.flatMap_map]
  rw [whole]
  apply readBody?_lines
  case free =>
    intro line listed
    obtain ⟨inner, inside, rfl⟩ := List.mem_map.mp listed
    simpa using free inner inside
  case inside =>
    intro line listed
    obtain ⟨inner, _, rfl⟩ := List.mem_map.mp listed
    rfl

end Body

section Whole

/-- The lines of a body, each indented. -/
def bodyText (lines : List Text) : Text := lines.flatMap fun line => '\n' :: ' ' :: line

/-- A wrapper as it is laid out, apart from its doc comment. -/
def layout (name arguments type : Text) (lines : List Text) : Text :=
  "export const ".toList ++ (name ++ (" = async (".toList ++ (arguments ++ (')' ::
    (": Promise<".toList ++ (type ++ ("> => \x7b".toList ++ (bodyText lines ++
      "\n\x7d;".toList))))))))

variable {name arguments type : Text} {lines : List Text}

theorem readWritten?_of_parts {text tail opened body after : Text} {returnType : Option Text}
    (named : readName? text = some (name, arguments ++ ')' :: tail))
    (closed : arguments.all (· != ')') = true)
    (result : readResult? tail = some (returnType, opened))
    (inside : readBody? opened = some (body, after)) :
    readWritten? text = some (⟨name, arguments, returnType, body⟩, after) := by
  have stops : (')' :: tail).head?.all (fun c => !(c != ')')) = true := rfl
  have paren : ")".toList.isPrefixOf? (')' :: tail) = some tail := isPrefixOf?_append [')'] tail
  unfold readWritten?
  simp only [named, bind, Option.bind_some, takeWhile_append_of_stop arguments closed stops,
    dropWhile_append_of_stop arguments closed stops, paren, result, inside]

/-- What is read is read part by part. -/
theorem parts_of_readWritten? {text after : Text} {written : Written}
    (read : readWritten? text = some (written, after)) :
    ∃ tail opened, readName? text = some (written.name, written.arguments ++ ')' :: tail) ∧
      written.arguments.all (· != ')') = true ∧
      readResult? tail = some (written.returnType, opened) ∧
      readBody? opened = some (written.body, after) := by
  obtain ⟨⟨name, rest⟩, named, read⟩ := Option.bind_eq_some_iff.mp read
  obtain ⟨tail, closed, read⟩ := Option.bind_eq_some_iff.mp read
  obtain ⟨⟨type, opened⟩, result, read⟩ := Option.bind_eq_some_iff.mp read
  obtain ⟨⟨body, left⟩, inside, read⟩ := Option.bind_eq_some_iff.mp read
  cases read
  have behind : rest.dropWhile (· != ')') = ')' :: tail := eq_append_of_isPrefixOf? closed
  have whole : rest = rest.takeWhile (· != ')') ++ ')' :: tail := by
    rw [← behind, List.takeWhile_append_dropWhile]
  exact ⟨tail, opened, by rw [named, ← whole], List.all_takeWhile, result, inside⟩

theorem readWritten?_layout (plain : Name.isPlain name = true)
    (closed : arguments.all (· != ')') = true)
    (typed : type.all (fun c => c != '\n' && c != '>') = true)
    (free : ∀ line ∈ lines, '\n' ∉ line) (rest : Text) :
    readWritten? (layout name arguments type lines ++ rest) =
      some (⟨name, arguments, some type, bodyText lines ++ ['\n']⟩, rest) := by
  unfold layout
  simp only [List.append_assoc, List.cons_append]
  exact readWritten?_of_parts (readName?_append plain _) closed (readResult?_append typed _)
    (readBody?_indented free rest)

theorem read?_layout (plain : Name.isPlain name = true)
    (closed : arguments.all (· != ')') = true)
    (typed : type.all (fun c => c != '\n' && c != '>') = true)
    (free : ∀ line ∈ lines, '\n' ∉ line) {docs : List Text} (bare : ∀ line ∈ docs, '*' ∉ line)
    (atLineStart : Bool) (rest : Text) :
    read? atLineStart
        (Module.docComment docs 0 ++ '\n' :: (layout name arguments type lines ++ rest)) =
      some (some (docInside docs), ⟨name, arguments, some type, bodyText lines ++ ['\n']⟩,
        rest) := by
  have starts :
      (layout name arguments type lines ++ rest).head?.all (fun c => !isBlank c) = true := by
    have first : (layout name arguments type lines ++ rest).head? = some 'e' := rfl
    rw [first]
    decide
  rw [read?, readDoc?_docComment bare starts]
  simp only
  rw [readWritten?_layout plain closed typed free]
  rfl

theorem findFrom_nil (atLineStart : Bool) : findFrom atLineStart [] = [] := by rw [findFrom]

theorem findFrom_of_read? {atLineStart : Bool} {text after : Text} {doc : Option Text}
    {written : Written} (read : read? atLineStart text = some (doc, written, after)) :
    findFrom atLineStart text = ofWritten doc written :: findFrom false after := by
  cases text with
  | nil =>
    have shorter := read?_length read
    contradiction
  | cons c rest =>
    rw [findFrom]
    split
    · rename_i found
      rw [read] at found
      cases found
      rfl
    · rename_i none
      rw [read] at none
      contradiction

theorem findFrom_of_not_read? {atLineStart : Bool} {c : Char} {rest : Text}
    (none : read? atLineStart (c :: rest) = none) :
    findFrom atLineStart (c :: rest) = findFrom (c == '\n') rest := by
  rw [findFrom]
  split
  · rename_i found
    rw [none] at found
    contradiction
  · rfl

/-- Nothing is read where neither a doc comment nor an export begins. -/
theorem read?_eq_none {c : Char} {rest : Text} (doc : readDoc? (c :: rest) = none) (other : 'e' ≠ c)
    (atLineStart : Bool) : read? atLineStart (c :: rest) = none := by
  have step : "export const ".toList.isPrefixOf? (c :: rest) =
      if 'e' == c then "xport const ".toList.isPrefixOf? rest else none := rfl
  have unnamed : readName? (c :: rest) = none := by
    rw [readName?, step, if_neg (by simpa using other)]
    rfl
  rw [read?, doc, readWritten?, unnamed]
  cases atLineStart <;> rfl

theorem read?_blank {c : Char} (blank : isBlank c = true) (atLineStart : Bool) (rest : Text) :
    read? atLineStart (c :: rest) = none := by
  have slash : '/' ≠ c := by
    rintro rfl
    exact absurd blank (by decide)
  have letter : 'e' ≠ c := by
    rintro rfl
    exact absurd blank (by decide)
  have step : "/**".toList.isPrefixOf? (c :: rest) =
      if '/' == c then "**".toList.isPrefixOf? rest else none := rfl
  have doc : readDoc? (c :: rest) = none := by
    rw [readDoc?, step, if_neg (by simpa using slash)]
    rfl
  exact read?_eq_none doc letter atLineStart

/-- Nothing is found in blanks, behind which a line starts if they end in a line feed. -/
theorem findFrom_blanks {blanks : Text} (blank : blanks.all isBlank = true) (atLineStart : Bool)
    (rest : Text) :
    findFrom atLineStart (blanks ++ rest) = findFrom (startsLine atLineStart blanks) rest := by
  induction blanks generalizing atLineStart with
  | nil => rfl
  | cons c blanks ih =>
    rw [List.all_cons, Bool.and_eq_true] at blank
    rw [List.cons_append, findFrom_of_not_read? (read?_blank blank.1 atLineStart _), ih blank.2,
      startsLine_cons]

/-- Neither a star nor the end of a line. -/
def inIdleLine (c : Char) : Bool := c != '*' && c != '\n'

theorem ne_of_inIdleLine {c : Char} (idle : inIdleLine c = true) : c ≠ '*' ∧ c ≠ '\n' := by
  simpa [inIdleLine] using idle

theorem readDoc?_eq_none {c d : Char} {rest : Text} (other : d ≠ '*') :
    readDoc? (c :: d :: rest) = none := by
  have step : "/**".toList.isPrefixOf? (c :: d :: rest) =
      if '/' == c then if '*' == d then "*".toList.isPrefixOf? rest else none else none := rfl
  have closed : ('*' == d) = false := by simpa using Ne.symm other
  rw [readDoc?, step, closed]
  split <;> rfl

theorem readDoc?_in_line {c : Char} {line : Text} (idle : line.all inIdleLine = true)
    (rest : Text) : readDoc? (c :: (line ++ '\n' :: rest)) = none := by
  cases line with
  | nil => exact readDoc?_eq_none (by decide)
  | cons d line =>
    rw [List.all_cons, Bool.and_eq_true] at idle
    exact readDoc?_eq_none (ne_of_inIdleLine idle.1).1

theorem findFrom_in_line (line : Text) (idle : line.all inIdleLine = true) (rest : Text) :
    findFrom false (line ++ '\n' :: rest) = findFrom true rest := by
  have unread : ∀ text, readDoc? text = none → read? false text = none := by
    intro text none
    rw [read?, none]
    rfl
  induction line with
  | nil => exact findFrom_of_not_read? (unread ('\n' :: rest) rfl)
  | cons c line ih =>
    rw [List.all_cons, Bool.and_eq_true] at idle
    have inner : (c == '\n') = false := beq_false_of_ne (ne_of_inIdleLine idle.1).2
    have step := findFrom_of_not_read? (unread _ (readDoc?_in_line (c := c) idle.2 rest))
    rw [inner, ih idle.2] at step
    exact step

/-- A line without a comment that does not start as a wrapper does is passed over. -/
theorem findFrom_line (line : Text) (idle : line.all inIdleLine = true)
    (other : line.head? ≠ some 'e') (rest : Text) :
    findFrom true (line ++ '\n' :: rest) = findFrom true rest := by
  cases line with
  | nil => exact findFrom_of_not_read? (read?_eq_none rfl (by decide) true)
  | cons c line =>
    rw [List.all_cons, Bool.and_eq_true] at idle
    have start : 'e' ≠ c := fun same => other (by rw [same, List.head?_cons])
    have inner : (c == '\n') = false := beq_false_of_ne (ne_of_inIdleLine idle.1).2
    have step := findFrom_of_not_read?
      (read?_eq_none (readDoc?_in_line (c := c) idle.2 rest) start true)
    rw [inner, findFrom_in_line line idle.2] at step
    exact step

/-- Blocks with a blank line before each are read one after the other. -/
theorem findFrom_blocks {ι : Type} {items : List ι} {text : ι → Text} {found : ι → FoundWrapper}
    (reads : ∀ item ∈ items, ∀ rest,
      findFrom true (text item ++ rest) = found item :: findFrom false rest) :
    findFrom true (items.flatMap fun item => '\n' :: text item ++ ['\n']) = items.map found := by
  induction items with
  | nil => rw [List.flatMap_nil, findFrom_nil, List.map_nil]
  | cons item items ih =>
    have tail := ih fun other member => reads other (List.mem_cons_of_mem _ member)
    have whole : (item :: items).flatMap (fun item => '\n' :: text item ++ ['\n']) =
        '\n' :: (text item ++ '\n' :: items.flatMap fun item => '\n' :: text item ++ ['\n']) := by
      simp
    calc findFrom true ((item :: items).flatMap fun item => '\n' :: text item ++ ['\n'])
        = findFrom true (text item ++
            '\n' :: items.flatMap fun item => '\n' :: text item ++ ['\n']) := by
          rw [whole]
          exact findFrom_line [] rfl (by simp) _
      _ = found item :: findFrom false
            ('\n' :: items.flatMap fun item => '\n' :: text item ++ ['\n']) :=
          reads item List.mem_cons_self _
      _ = (item :: items).map found := by
          rw [List.map_cons, ← tail]
          exact congrArg _ (findFrom_in_line [] rfl _)

end Whole

end FoundWrapper

end TypedClient
