import TypedClient.Proofs.Name.SchemaType

/-!
Reading a method back from the name of its wrapper. A verb is found in front of a capital letter only,
and a name made from a path opens with the first letter or digit of the path. Main statement: the
method is read back exactly from the names whose path does not open with a digit.
-/

namespace TypedClient

open Text

namespace Conversions

variable (conversions : Conversions)

/-- Whether no digit comes before the first letter of a path that is spelled in ASCII. -/
def opensLettered (path : Text) : Bool :=
  (((Path.bareSegments path).flatMap conversions.ascii).find? Char.isAlphanum).all Char.isAlpha

theorem head?_flatMap_pascal (names : List Text) :
    (names.flatMap conversions.pascal).head? =
      ((names.flatMap conversions.ascii).find? Char.isAlphanum).map Char.toUpper := by
  rw [List.head?_flatMap, List.find?_flatMap, List.map_findSome?]
  exact congrArg (names.findSome? ·) (funext conversions.head?_pascal)

theorem pascalName_opens (path : Text) :
    (conversions.pascalName path).head?.any Char.isUpper = conversions.opensLettered path := by
  have head := conversions.head?_flatMap_pascal (Path.bareSegments path)
  unfold pascalName opensLettered
  cases found : ((Path.bareSegments path).flatMap conversions.ascii).find? Char.isAlphanum with
  | none =>
    rw [found, Option.map_none, List.head?_eq_none_iff] at head
    rw [head]
    rfl
  | some c =>
    have word : c.isAlphanum = true := by simpa using List.find?_some found
    have capital := alphanum_imp (q := fun c => c.toUpper.isUpper == c.isAlpha) (by decide) word
    rw [found] at head
    split
    · rename_i empty
      rw [empty] at head
      contradiction
    · rw [head]
      exact eq_of_beq capital

end Conversions

namespace VerbPrefixes

/-- No verb opens another one. -/
def Apart (verbs : VerbPrefixes) : Prop :=
  verbs.entries.Pairwise fun first second => ¬ first.2 <+: second.2 ∧ ¬ second.2 <+: first.2

instance (verbs : VerbPrefixes) : Decidable verbs.Apart :=
  inferInstanceAs (Decidable (verbs.entries.Pairwise fun first second =>
    ¬ first.2 <+: second.2 ∧ ¬ second.2 <+: first.2))

theorem opensName_append (verb rest : Text) :
    opensName verb (verb ++ rest) = rest.head?.any Char.isUpper := by
  rw [opensName, isPrefixOf?_append]
  cases rest <;> rfl

/-- A verb does not open a name that another one opens. -/
theorem not_opensName_append {verb other : Text} (apart : ¬ verb <+: other ∧ ¬ other <+: verb)
    (rest : Text) : opensName other (verb ++ rest) = false := by
  unfold opensName
  cases found : other.isPrefixOf? (verb ++ rest) with
  | none => rfl
  | some tail =>
    have opens : other <+: verb ++ rest := ⟨tail, (eq_append_of_isPrefixOf? found).symm⟩
    rcases List.prefix_or_prefix_of_prefix (List.prefix_append verb rest) opens with first | second
    · exact absurd first apart.1
    · exact absurd second apart.2

variable {verbs : VerbPrefixes} {method : Method}

theorem filter_opensName (apart : verbs.Apart) {entry : Text × Text} (listed : entry ∈ verbs.entries)
    (rest : Text) :
    verbs.entries.filter (fun other => opensName other.2 (entry.2 ++ rest)) =
      if rest.head?.any Char.isUpper then [entry] else [] := by
  obtain ⟨before, after, whole⟩ := List.append_of_mem listed
  unfold Apart at apart
  rw [whole, List.pairwise_append, List.pairwise_cons] at apart
  obtain ⟨_, ⟨later, _⟩, earlier⟩ := apart
  have front : before.filter (fun other => opensName other.2 (entry.2 ++ rest)) = [] := by
    refine List.filter_eq_nil_iff.mpr fun other member => ?_
    rw [not_opensName_append (earlier other member entry List.mem_cons_self).symm]
    exact Bool.false_ne_true
  have back : after.filter (fun other => opensName other.2 (entry.2 ++ rest)) = [] := by
    refine List.filter_eq_nil_iff.mpr fun other member => ?_
    rw [not_opensName_append (later other member)]
    exact Bool.false_ne_true
  rw [whole, List.filter_append, front, List.filter_cons, back, opensName_append]
  rfl

theorem ofToken?_upperAscii_lowerName (known : method ∈ Method.known) :
    Method.ofToken? (upperAscii method.lowerName) = some method := by
  have each : ∀ method ∈ Method.known,
      Method.ofToken? (upperAscii method.lowerName) = some method := by decide
  exact each method known

/-- A method is read back from its verb if a capital letter follows. -/
theorem methodOfName?_append (apart : verbs.Apart) (known : method ∈ Method.known)
    (listed : (method.lowerName, verbs.verbFor method) ∈ verbs.entries) (rest : Text) :
    verbs.methodOfName? (verbs.verbFor method ++ rest) =
      if rest.head?.any Char.isUpper then some method else none := by
  unfold methodOfName?
  rw [filter_opensName apart listed rest]
  split
  · exact ofToken?_upperAscii_lowerName known
  · rfl

/-- Whatever the path and the conversions of text, the method is read back from the name of its wrapper
exactly if the first letter or digit of the path, if there is one, is a letter. -/
theorem method_read_back (conversions : Conversions) (path : Text) {method : Method}
    (listed : method ∈ [Method.get, .post, .put, .patch, .delete]) :
    standard.methodOfName? (conversions.wrapperName standard method path) =
      if conversions.opensLettered path then some method else none := by
  have known : ∀ method ∈ [Method.get, .post, .put, .patch, .delete], method ∈ Method.known ∧
      (method.lowerName, standard.verbFor method) ∈ standard.entries := by decide
  obtain ⟨known, entry⟩ := known method listed
  unfold Conversions.wrapperName
  rw [methodOfName?_append (by decide) known entry, conversions.pascalName_opens]

theorem fetch_read_back :
    Method.get ∈ [Method.get, .post, .put, .patch, .delete] ∧
    Conversions.standard.opensLettered "/Éclair/{id}" = true ∧
    standard.methodOfName? (standard.wrapperName .get "/Éclair/{id}") = some .get := by
  have lettered : Conversions.standard.opensLettered "/Éclair/{id}" = true := by decide
  have read := method_read_back .standard "/Éclair/{id}"
    (List.mem_cons_self : Method.get ∈ [Method.get, .post, .put, .patch, .delete])
  rw [lettered] at read
  exact ⟨List.mem_cons_self, lettered, read⟩

/-- No capital follows the verb in `fetch2faCodes`. -/
theorem numbered_path_not_read_back :
    standard.methodOfName? (standard.wrapperName .get "/2fa/codes") ≠ some .get := by decide

end VerbPrefixes

end TypedClient
