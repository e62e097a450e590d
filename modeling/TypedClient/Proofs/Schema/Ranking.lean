import TypedClient.Schema.Property

/-!
The order of the properties of a schema: the ranking is the stable sort of the relevant ones by
descending priority.
-/

namespace TypedClient

/-- Zero for what tells least about a schema. -/
def Priority.rank : Priority → Nat
  | baseline => 0
  | nestedReference => 1
  | suffixMatch => 2
  | enumOrUnion => 3

namespace Property

/-- Whether a property may stand before another one in a ranking. -/
def precedes (first second : Property) : Bool := second.priority.rank ≤ first.priority.rank

theorem precedes_trans (first second third : Property) (one : precedes first second)
    (two : precedes second third) : precedes first third := by
  simp only [precedes, decide_eq_true_eq] at *
  omega

theorem precedes_total (first second : Property) :
    (precedes first second || precedes second first) = true := by
  simp only [precedes, Bool.or_eq_true, decide_eq_true_eq]
  omega

/-- What an ordered list holds, priority by priority. -/
theorem flatMap_descending {ordered : List Property}
    (sorted : ordered.Pairwise (fun first second => precedes first second = true)) :
    Priority.descending.flatMap (fun priority => ordered.filter (·.priority == priority)) =
      ordered := by
  induction ordered with
  | nil => rfl
  | cons property rest ih =>
    obtain ⟨first, others⟩ := List.pairwise_cons.mp sorted
    have none_above : ∀ priority : Priority, property.priority.rank < priority.rank →
        rest.filter (·.priority == priority) = [] := by
      intro priority above
      apply List.filter_eq_nil_iff.mpr
      intro other member same
      have below := first other member
      rw [precedes, decide_eq_true_eq, eq_of_beq same] at below
      omega
    have tail := ih others
    simp only [Priority.descending, List.flatMap_cons, List.flatMap_nil, List.append_nil,
      List.filter_cons] at tail ⊢
    cases level : property.priority <;> simp only [level] at none_above
    · rw [none_above .enumOrUnion (by decide), none_above .suffixMatch (by decide),
        none_above .nestedReference (by decide)] at tail ⊢
      simpa using tail
    · rw [none_above .enumOrUnion (by decide), none_above .suffixMatch (by decide)] at tail ⊢
      simpa using tail
    · rw [none_above .enumOrUnion (by decide)] at tail ⊢
      simpa using tail
    · simpa using tail

/-- Sorting keeps the properties of one priority in their order. -/
theorem filter_mergeSort (properties : List Property) (priority : Priority) :
    (properties.mergeSort precedes).filter (·.priority == priority) =
      properties.filter (·.priority == priority) := by
  have level : (properties.filter (·.priority == priority)).Pairwise
      (fun first second => precedes first second = true) := by
    apply List.pairwise_of_forall_mem_list
    intro first one second two
    have same := eq_of_beq (List.mem_filter.mp one).2
    have other := eq_of_beq (List.mem_filter.mp two).2
    simp [precedes, same, other]
  have kept := (List.sublist_mergeSort precedes_trans precedes_total level
    List.filter_sublist).filter (·.priority == priority)
  rw [List.filter_filter] at kept
  simp only [Bool.and_self] at kept
  have count :=
    ((List.mergeSort_perm properties precedes).filter (·.priority == priority)).length_eq
  exact (kept.eq_of_length count.symm).symm

theorem ranked_eq_mergeSort (properties : List Property) :
    ranked properties = (properties.filter isRelevant).mergeSort precedes := by
  have sorted := List.pairwise_mergeSort precedes_trans precedes_total
    (properties.filter isRelevant)
  rw [← flatMap_descending sorted]
  unfold ranked
  congr 1
  funext priority
  rw [filter_mergeSort, List.filter_filter]
  congr 1
  funext property
  exact Bool.and_comm _ _

end Property

end TypedClient
