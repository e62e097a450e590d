import TypedClient.Proofs.Module.WrapperReading

/-!
Modules of wrappers that are written by hand. Main statement: a wrapper is read as it is written exactly
if its doc comment does not end in an odd run of stars, its arguments hold no closing parenthesis and
its return type no arrow before a brace, and a module of such wrappers is read whole.
-/

namespace TypedClient

open Text

/-- A doc comment, with the blanks behind it up to the line of its wrapper. -/
structure DocComment where
  inside : Text
  gap : Text
  /-- The first end mark ends the comment. -/
  first : ¬ ['*', '/'] <:+: inside
  blank : gap.all isBlank = true
  ends : gap.getLast? = some '\n'

/-- A wrapper that is written by hand, with the blanks before and behind it. -/
structure HandWritten where
  margin : Text
  doc : Option DocComment
  name : Text
  arguments : Text
  returnType : Text
  body : List Text
  gap : Text
  /-- Without a doc comment before it, a wrapper starts a line. -/
  starts : doc = none → startsLine true margin = true
  named : name ≠ [] ∧ name.all FoundWrapper.isNameChar = true
  typed : '\n' ∉ returnType ∧ trim returnType ≠ []
  /-- No line of the body is taken for its end. -/
  lined : ∀ line ∈ body, '\n' ∉ line ∧ "\x7d;".toList.isPrefixOf? line = none
  spaced : margin.all isBlank = true ∧ gap.all isBlank = true

namespace HandWritten

open FoundWrapper

/-- What stands in a wrapper behind its arguments. -/
def afterArguments (block : HandWritten) : Text :=
  ": Promise<".toList ++ (block.returnType ++ ("> => \x7b".toList ++ (bodyLines block.body ++
    "\n\x7d;".toList)))

/-- The code of a wrapper. -/
def code (block : HandWritten) : Text :=
  "export const ".toList ++ (block.name ++ (" = async (".toList ++ (block.arguments ++
    ')' :: block.afterArguments)))

/-- A wrapper from its doc comment on. -/
def text (block : HandWritten) : Text :=
  (block.doc.map fun doc => docText doc.inside doc.gap).getD [] ++ block.code

/-- What is written, in pieces. -/
def written (block : HandWritten) : Written :=
  ⟨block.name, block.arguments, some block.returnType, bodyLines block.body ++ ['\n']⟩

/-- What a hook is made from: the operation id is that of the wrapper's own doc comment. -/
def found (block : HandWritten) : FoundWrapper where
  name := block.name
  operation := block.doc.bind fun doc => operationIn? doc.inside
  method := methodIn? (bodyLines block.body ++ ['\n'])
  arguments := argumentsIn block.arguments
  returnType := some (trim block.returnType)

/-- A module of wrappers, each on lines of its own. -/
def moduleText (blocks : List HandWritten) : Text :=
  join ['\n'] (blocks.map fun block => block.margin ++ (block.text ++ block.gap))

/-- What makes a wrapper be read as it is written. -/
structure Readable (block : HandWritten) : Prop where
  doc : ∀ doc ∈ block.doc, endStars doc.inside % 2 = 0
  name : block.name.head?.any Name.startsIdentifier = true
  arguments : ')' ∉ block.arguments
  /-- No arrow and brace follow a `>` in the return type. -/
  returnType : readReturn? block.returnType = none

variable {block : HandWritten}

theorem readName?_code (block : HandWritten) (rest : Text) :
    readName? (block.code ++ rest) =
      if block.name.head?.any Name.startsIdentifier then
        some (block.name, block.arguments ++ ')' :: (block.afterArguments ++ rest))
      else none := by
  have whole : block.code ++ rest = "export const ".toList ++ (block.name ++ (" = async (".toList ++
      (block.arguments ++ ')' :: (block.afterArguments ++ rest)))) := by
    unfold code
    simp only [List.append_assoc, List.cons_append]
  rw [whole]
  exact readName?_eq block.named.1 block.named.2 _

theorem readResult?_code (block : HandWritten) (rest : Text) :
    readResult? (block.afterArguments ++ rest) =
      (readReturn? (block.returnType ++ ("> => \x7b".toList ++
        (bodyLines block.body ++ ("\n\x7d;".toList ++ rest))))).map
          fun (type, body) => (some type, body) := by
  have whole : block.afterArguments ++ rest = ": Promise<".toList ++ (block.returnType ++
      ("> => \x7b".toList ++ (bodyLines block.body ++ ("\n\x7d;".toList ++ rest)))) := by
    unfold afterArguments
    simp only [List.append_assoc]
  rw [whole, Option.map_eq_bind]
  rfl

/-- Behind a return type that is read whole, the body is read. -/
theorem readReturn?_code {inner : Text} (rest : Text)
    (read : readReturn? (block.returnType ++ ("> => \x7b".toList ++ rest)) =
      some (block.returnType, inner)) : inner = rest := by
  obtain ⟨after, whole, arrow⟩ := readReturn?_eq_append read
  have same : " => \x7b".toList ++ rest = after :=
    (List.cons.inj (List.append_cancel_left whole)).2
  have opens : arrow? (" => \x7b".toList ++ rest) = some rest := rfl
  rw [same, arrow] at opens
  exact Option.some.inj opens

/-- The code of a wrapper is read as it is written exactly if no part of it is cut short. -/
theorem readWritten?_iff (block : HandWritten) (rest : Text) :
    readWritten? (block.code ++ rest) = some (block.written, rest) ↔
      block.name.head?.any Name.startsIdentifier = true ∧ ')' ∉ block.arguments ∧
        readReturn? block.returnType = none := by
  constructor
  · intro read
    obtain ⟨tail, opened, named, unclosed, result, _⟩ := parts_of_readWritten? read
    rw [readName?_code] at named
    split at named
    · rename_i starts
      have behind := (Prod.mk.inj (Option.some.inj named)).2
      cases List.append_cancel_left behind
      rw [readResult?_code] at result
      obtain ⟨⟨type, after⟩, returned, pair⟩ := Option.map_eq_some_iff.mp result
      cases pair
      rw [readReturn?_code _ returned] at returned
      exact ⟨starts, all_ne_iff.mp unclosed, (readReturn?_iff block.typed.1 _).mp returned⟩
    · contradiction
  · rintro ⟨starts, unclosed, unopened⟩
    have result : readResult? (block.afterArguments ++ rest) =
        some (some block.returnType, bodyLines block.body ++ ("\n\x7d;".toList ++ rest)) := by
      rw [readResult?_code, (readReturn?_iff block.typed.1 _).mpr unopened]
      rfl
    exact readWritten?_of_parts ((readName?_code block rest).trans (if_pos starts))
      (all_ne_iff.mpr unclosed) result (readBody?_lines
        (fun line inside => (block.lined line inside).1)
        (fun line inside => (block.lined line inside).2) rest)

theorem readDoc?_code (block : HandWritten) (rest : Text) :
    readDoc? (block.code ++ rest) = none := rfl

theorem readable_iff (block : HandWritten) : block.Readable ↔
    (∀ doc ∈ block.doc, endStars doc.inside % 2 = 0) ∧
      block.name.head?.any Name.startsIdentifier = true ∧ ')' ∉ block.arguments ∧
        readReturn? block.returnType = none :=
  ⟨fun ⟨doc, name, arguments, returnType⟩ => ⟨doc, name, arguments, returnType⟩,
    fun ⟨doc, name, arguments, returnType⟩ => ⟨doc, name, arguments, returnType⟩⟩

/-- A doc comment is read with the wrapper behind it exactly if it is closed by its first end mark. -/
theorem readDoc?_text {doc : DocComment} (given : block.doc = some doc) (rest left : Text) :
    readDoc? (block.text ++ rest) = some (doc.inside, left) ↔
      endStars doc.inside % 2 = 0 ∧ left = block.code ++ rest := by
  have whole : block.text ++ rest = docText doc.inside doc.gap ++ (block.code ++ rest) := by
    rw [text, given, List.append_assoc]
    rfl
  have starts : (block.code ++ rest).head?.all (fun c => !isBlank c) = true := by
    have first : (block.code ++ rest).head? = some 'e' := rfl
    rw [first]
    decide
  rw [whole]
  exact readDoc?_iff doc.first doc.blank doc.ends starts

/-- A wrapper is read as it is written exactly if it is readable. -/
theorem read?_iff (block : HandWritten) (rest : Text) :
    read? true (block.text ++ rest) = some (block.doc.map (·.inside), block.written, rest) ↔
      block.Readable := by
  rw [readable_iff, ← readWritten?_iff block rest]
  cases given : block.doc with
  | none =>
    have whole : block.text = block.code := by
      rw [text, given]
      rfl
    rw [whole, read?, readDoc?_code]
    simp
  | some doc =>
    constructor
    · intro read
      unfold read? at read
      split at read
      · rename_i inside line found
        obtain ⟨⟨pieces, after⟩, code, same⟩ := Option.map_eq_some_iff.mp read
        obtain ⟨⟨⟩, ⟨⟩, ⟨⟩⟩ := same
        obtain ⟨even, rfl⟩ := (readDoc?_text given rest line).mp found
        exact ⟨by simpa using even, code⟩
      · obtain ⟨⟨pieces, after⟩, _, same⟩ := Option.map_eq_some_iff.mp read
        cases same
    · rintro ⟨even, code⟩
      have comment := (readDoc?_text given rest _).mpr ⟨even doc rfl, rfl⟩
      rw [read?, comment]
      simp [code]

theorem ofWritten_written (block : HandWritten) :
    ofWritten (block.doc.map (·.inside)) block.written = block.found := by
  have type : ((some block.returnType).map trim).filter (· ≠ []) = some (trim block.returnType) := by
    simp [block.typed.2]
  have operation : (block.doc.map (·.inside)).bind operationIn? =
      block.doc.bind fun doc => operationIn? doc.inside := by
    cases block.doc <;> rfl
  unfold ofWritten found
  rw [operation]
  exact congrArg (FoundWrapper.mk _ _ _ _) type

/-- A readable wrapper is read behind its margin. -/
theorem read?_margin (readable : block.Readable) (rest : Text) :
    read? (startsLine true block.margin) (block.text ++ rest) =
      some (block.doc.map (·.inside), block.written, rest) := by
  have read := (read?_iff block rest).mpr readable
  cases given : block.doc with
  | none =>
    rw [block.starts given]
    rwa [given] at read
  | some doc =>
    have comment := (readDoc?_text given rest _).mpr ⟨readable.doc doc given, rfl⟩
    rw [given, read?, comment] at read
    rw [read?, comment]
    exact read

theorem findFrom_block (readable : block.Readable) (rest : Text) :
    findFrom true (block.margin ++ (block.text ++ rest)) = block.found :: findFrom false rest := by
  rw [findFrom_blanks block.spaced.1, findFrom_of_read? (read?_margin readable rest),
    ofWritten_written]

/-- A module of readable wrappers is read whole. -/
theorem findAll_moduleText {blocks : List HandWritten}
    (readable : ∀ block ∈ blocks, block.Readable) :
    findAll (moduleText blocks) = blocks.map found := by
  unfold findAll moduleText
  induction blocks with
  | nil => exact findFrom_nil true
  | cons block blocks ih =>
    obtain ⟨here, later⟩ := List.forall_mem_cons.mp readable
    cases blocks with
    | nil =>
      have behind : findFrom false block.gap = [] := by
        rw [← List.append_nil block.gap, findFrom_blanks block.spaced.2, findFrom_nil]
      rw [List.map_singleton, join_singleton, findFrom_block here, behind]
      rfl
    | cons next blocks =>
      have left := ih later
      rw [List.map_cons] at left
      have blank : (block.gap ++ ['\n']).all isBlank = true := by
        rw [List.all_append, block.spaced.2]
        rfl
      have line : startsLine false (block.gap ++ ['\n']) = true := by simp [startsLine]
      rw [List.map_cons, List.map_cons, join_cons_cons, List.append_assoc, List.append_assoc,
        findFrom_block here, ← List.append_assoc block.gap, findFrom_blanks blank, line, left]
      rfl

/-- Which wrappers of a module are read as they are written, and what is found in a module of such
wrappers: each of them, in order, with the operation id of its own doc comment. -/
theorem read_whole_iff (blocks : List HandWritten) :
    (∀ block ∈ blocks, ∀ rest : Text,
      read? true (block.text ++ rest) = some (block.doc.map (·.inside), block.written, rest) ↔
        block.Readable) ∧
    ((∀ block ∈ blocks, block.Readable) → findAll (moduleText blocks) = blocks.map found) :=
  ⟨fun block _ => read?_iff block, findAll_moduleText⟩

/-- A wrapper with a doc comment. -/
def loadUser (inside : Text) (first : ¬ ['*', '/'] <:+: inside) : HandWritten where
  margin := []
  doc := some ⟨inside, ['\n'], first, by decide +kernel, by decide +kernel⟩
  name := "loadUser"
  arguments := "id: string"
  returnType := "Result<User>"
  body := ["  return http.get<Result<User>>('/users', id);"]
  gap := "\n"
  starts := nofun
  named := by decide +kernel
  typed := by decide +kernel
  lined := by decide +kernel
  spaced := by decide +kernel

/-- A wrapper with other arguments behind it. -/
def sendUser (arguments : Text) : HandWritten where
  margin := []
  doc := some ⟨"\n * Sends a user.\n ", ['\n'], by decide +kernel, by decide +kernel,
    by decide +kernel⟩
  name := "sendUser"
  arguments := arguments
  returnType := "void"
  body := ["  return http.put<void>('/users', body);"]
  gap := "\n"
  starts := nofun
  named := by decide +kernel
  typed := by decide +kernel
  lined := by decide +kernel
  spaced := by decide +kernel

instance (block : HandWritten) : Decidable block.Readable :=
  decidable_of_iff _ (readable_iff block).symm

def users : List HandWritten :=
  [loadUser "\n * Loads a user.\n *\n * @operationId getUser\n " (by decide +kernel),
    sendUser "body: User, notify?: boolean"]

theorem users_read :
    findAll (moduleText users) =
      [⟨"loadUser", some "getUser", some .get, [⟨"id", some "string"⟩], some "Result<User>"⟩,
        ⟨"sendUser", none, some .put, [⟨"body", some "User"⟩, ⟨"notify", some "boolean"⟩],
          some "void"⟩] := by
  have readable : ∀ block ∈ users, block.Readable := by decide +kernel
  exact ((read_whole_iff users).2 readable).trans (by decide +kernel)

/-- The same wrappers, where the doc comment of the first ends in two stars. -/
def starredUsers : List HandWritten :=
  [loadUser "\n * Loads a user.\n *\n * @operationId getUser\n *" (by decide +kernel),
    sendUser "body: User, notify?: boolean"]

/-- A doc comment that ends in two stars is read on into the next one, so that the wrapper between
them is not found and the next wrapper gets its operation id. A parenthesis in its arguments keeps a
wrapper from being found. -/
theorem loadUser_swallowed :
    (findAll (moduleText starredUsers)).map (fun found => (found.name, found.operation)) =
      ([("sendUser", some "getUser")] : List (Text × Option Text)) ∧
    starredUsers.map (fun block => (block.found.name, block.found.operation)) =
      ([("loadUser", some "getUser"), ("sendUser", none)] : List (Text × Option Text)) ∧
    findAll (moduleText [sendUser "body: User, done: () => void"]) = [] := by
  decide +kernel

end HandWritten

end TypedClient
