import TypedClient.Operation.Response
import TypedClient.Proofs.Table

/-!
The response that decides the type of an operation. Main statement: it is that of the least success
status with an answer, or of `default` if no success status has one, read by the first strategy with
an answer, so that the order in which the responses are declared makes no difference.
-/

namespace TypedClient

open Text

section Choice

variable (description : Description) (responses : List (Text × ResponseContent))

/-- A strategy has an answer for a response, and none that is tried before it has one. -/
def Strategy.IsFirst (status : Text) (content : ResponseContent) (strategy : Strategy)
    (type : ResponseType) : Prop :=
  ∃ before after, Strategy.all = before ++ strategy :: after ∧
    strategy.resolve? description status content = some type ∧
    ∀ earlier ∈ before, earlier.resolve? description status content = none

/-- Some strategy has an answer for a status. -/
def Description.Accepts (status : Text) : Prop :=
  ∃ content, (status, content) ∈ responses ∧
    ∃ strategy : Strategy, (strategy.resolve? description status content).isSome = true

/-- The least success status with an answer, or `default` if only that has one. -/
def Description.Prefers (status : Text) : Prop :=
  description.Accepts responses status ∧
    ((isSuccessStatus status = true ∧ ∀ other, isSuccessStatus other = true →
        description.Accepts responses other → ¬ other < status) ∨
      (status = "default" ∧ ∀ other, isSuccessStatus other = true →
        ¬ description.Accepts responses other))

/-- The preferred status with what the first strategy reads off its response. -/
def Description.Chooses (resolved : ResolvedResponse) : Prop :=
  description.Prefers responses resolved.status ∧
    ∃ content, (resolved.status, content) ∈ responses ∧
      Strategy.IsFirst description resolved.status content resolved.strategy resolved.type

end Choice

namespace Table

variable {β : Type} {keys : List Text} {f : Text → Option β} {b : β}

/-- The first answer along ascending keys is that of the least key with one. -/
theorem findSome?_ascending (ascending : Ascending keys) :
    keys.findSome? f = some b ↔
      ∃ key ∈ keys, f key = some b ∧ ∀ other ∈ keys, (f other).isSome = true → ¬ other < key := by
  have least {b : β} (found : keys.findSome? f = some b) :
      ∃ key ∈ keys, f key = some b ∧ ∀ other ∈ keys, (f other).isSome = true → ¬ other < key := by
    obtain ⟨before, key, after, rfl, answer, earlier⟩ := List.findSome?_eq_some_iff.mp found
    refine ⟨key, by simp, answer, fun other member some => ?_⟩
    rcases List.mem_append.mp member with front | member
    · rw [earlier other front] at some
      contradiction
    · rcases List.mem_cons.mp member with rfl | behind
      · exact List.lt_irrefl other
      · have later := (List.pairwise_cons.mp (List.pairwise_append.mp ascending).2.1).1
        exact List.lt_asymm (later other behind)
  refine ⟨least, ?_⟩
  rintro ⟨key, listed, answer, first⟩
  cases found : keys.findSome? f with
  | none =>
    rw [List.findSome?_eq_none_iff.mp found key listed] at answer
    contradiction
  | some other =>
    obtain ⟨smallest, member, value, below⟩ := least found
    have same : key = smallest := by
      by_cases same : key = smallest
      · exact same
      · exact absurd (lt_of_not_lt same (first smallest member (by simp [value])))
          (below key listed (by simp [answer]))
    rw [← same, answer] at value
    exact value.symm

end Table

section Strategies

variable {description : Description} {status : Text} {content : ResponseContent}
  {resolved : ResolvedResponse}

theorem Strategy.mem_all (strategy : Strategy) : strategy ∈ Strategy.all := by
  cases strategy <;> decide

theorem resolveStatus?_eq_some_iff :
    description.resolveStatus? status content = some resolved ↔
      resolved.status = status ∧
        Strategy.IsFirst description status content resolved.strategy resolved.type := by
  rw [Description.resolveStatus?, List.findSome?_eq_some_iff]
  constructor
  · rintro ⟨before, strategy, after, order, answer, earlier⟩
    obtain ⟨type, read, rfl⟩ := Option.map_eq_some_iff.mp answer
    exact ⟨rfl, before, after, order, read,
      fun other member => Option.map_eq_none_iff.mp (earlier other member)⟩
  · rintro ⟨rfl, before, after, order, read, earlier⟩
    exact ⟨before, _, after, order, by rw [read]; rfl,
      fun other member => by rw [earlier other member]; rfl⟩

theorem isSome_resolveStatus? :
    (description.resolveStatus? status content).isSome = true ↔
      ∃ strategy : Strategy, (strategy.resolve? description status content).isSome = true := by
  rw [Description.resolveStatus?, List.findSome?_isSome_iff]
  simp [Strategy.mem_all]

end Strategies

namespace Description

variable {description : Description} {responses : List (Text × ResponseContent)} {status : Text}
  {resolved : ResolvedResponse}

/-- The answer for a status, from the response that is declared for it. -/
def answerFor? (description : Description) (responses : List (Text × ResponseContent))
    (status : Text) : Option ResolvedResponse :=
  (responses.lookup status).bind (description.resolveStatus? status)

theorem answerFor?_eq_some_iff (distinct : (responses.map (·.1)).Nodup) :
    description.answerFor? responses status = some resolved ↔ resolved.status = status ∧
      ∃ content, (status, content) ∈ responses ∧
        Strategy.IsFirst description status content resolved.strategy resolved.type := by
  rw [answerFor?, Option.bind_eq_some_iff]
  constructor
  · rintro ⟨content, found, read⟩
    obtain ⟨same, first⟩ := resolveStatus?_eq_some_iff.mp read
    exact ⟨same, content, Table.mem_of_lookup found, first⟩
  · rintro ⟨same, content, listed, first⟩
    exact ⟨content, Table.lookup_of_mem distinct listed,
      resolveStatus?_eq_some_iff.mpr ⟨same, first⟩⟩

theorem isSome_answerFor? (distinct : (responses.map (·.1)).Nodup) :
    (description.answerFor? responses status).isSome = true ↔
      description.Accepts responses status := by
  constructor
  · intro found
    obtain ⟨resolved, answer⟩ := Option.isSome_iff_exists.mp found
    obtain ⟨content, declared, read⟩ := Option.bind_eq_some_iff.mp answer
    exact ⟨content, Table.mem_of_lookup declared,
      isSome_resolveStatus?.mp (Option.isSome_iff_exists.mpr ⟨resolved, read⟩)⟩
  · rintro ⟨content, listed, read⟩
    rw [answerFor?, Table.lookup_of_mem distinct listed]
    exact isSome_resolveStatus?.mpr read

/-- Success statuses are searched first, in ascending order. -/
def successAnswer? (description : Description) (responses : List (Text × ResponseContent)) :
    Option ResolvedResponse :=
  (Table.sorted ((responses.map (·.1)).filter isSuccessStatus)).findSome?
    (description.answerFor? responses)

def defaultAnswer? (description : Description) (responses : List (Text × ResponseContent)) :
    Option ResolvedResponse :=
  ((responses.map (·.1)).filter isDefaultStatus).findSome? (description.answerFor? responses)

theorem resolveResponse?_eq :
    description.resolveResponse? responses =
      (description.successAnswer? responses).or (description.defaultAnswer? responses) :=
  List.findSome?_append

theorem mem_keys_of_accepts (accepted : description.Accepts responses status) :
    status ∈ responses.map (·.1) := by
  obtain ⟨content, listed, _⟩ := accepted
  exact List.mem_map_of_mem listed

section Searches

variable (distinct : (responses.map (·.1)).Nodup)

include distinct

theorem accepts_of_answer (answer : description.answerFor? responses status = some resolved) :
    description.Accepts responses status :=
  (isSome_answerFor? distinct).mp (Option.isSome_iff_exists.mpr ⟨resolved, answer⟩)

theorem successAnswer?_eq_none_iff :
    description.successAnswer? responses = none ↔
      ∀ status, isSuccessStatus status = true → ¬ description.Accepts responses status := by
  rw [successAnswer?, List.findSome?_eq_none_iff]
  constructor
  · intro silent status success accepted
    have listed := List.mem_filter.mpr ⟨mem_keys_of_accepts accepted, success⟩
    have answer := (isSome_answerFor? distinct).mpr accepted
    rw [silent status (Table.mem_sorted.mpr listed)] at answer
    contradiction
  · intro silent status listed
    have success := (List.mem_filter.mp (Table.mem_sorted.mp listed)).2
    cases answer : description.answerFor? responses status with
    | none => rfl
    | some resolved => exact absurd (accepts_of_answer distinct answer) (silent status success)

theorem successAnswer?_eq_some_iff :
    description.successAnswer? responses = some resolved ↔
      description.answerFor? responses resolved.status = some resolved ∧
        isSuccessStatus resolved.status = true ∧ ∀ other, isSuccessStatus other = true →
          description.Accepts responses other → ¬ other < resolved.status := by
  rw [successAnswer?, Table.findSome?_ascending (Table.ascending_sorted _)]
  constructor
  · rintro ⟨status, listed, answer, least⟩
    obtain ⟨same, _⟩ := (answerFor?_eq_some_iff distinct).mp answer
    rw [same]
    refine ⟨answer, (List.mem_filter.mp (Table.mem_sorted.mp listed)).2, ?_⟩
    intro other success accepted
    refine least other (Table.mem_sorted.mpr (List.mem_filter.mpr ?_))
      ((isSome_answerFor? distinct).mpr accepted)
    exact ⟨mem_keys_of_accepts accepted, success⟩
  · rintro ⟨answer, success, least⟩
    have declared := mem_keys_of_accepts (accepts_of_answer distinct answer)
    refine ⟨resolved.status, Table.mem_sorted.mpr (List.mem_filter.mpr ⟨declared, success⟩), answer,
      fun other listed found => ?_⟩
    exact least other (List.mem_filter.mp (Table.mem_sorted.mp listed)).2
      ((isSome_answerFor? distinct).mp found)

theorem defaultAnswer?_eq_some_iff :
    description.defaultAnswer? responses = some resolved ↔
      description.answerFor? responses resolved.status = some resolved ∧
        resolved.status = "default" := by
  have found {resolved : ResolvedResponse}
      (search : description.defaultAnswer? responses = some resolved) :
      description.answerFor? responses resolved.status = some resolved ∧
        resolved.status = "default" := by
    obtain ⟨status, listed, answer⟩ := List.exists_of_findSome?_eq_some search
    obtain ⟨same, _⟩ := (answerFor?_eq_some_iff distinct).mp answer
    rw [same]
    exact ⟨answer, eq_of_beq (List.mem_filter.mp listed).2⟩
  refine ⟨found, ?_⟩
  rintro ⟨answer, default⟩
  have listed : resolved.status ∈ (responses.map (·.1)).filter isDefaultStatus :=
    List.mem_filter.mpr ⟨mem_keys_of_accepts (accepts_of_answer distinct answer), by
      rw [default]; rfl⟩
  cases search : description.defaultAnswer? responses with
  | none =>
    rw [List.findSome?_eq_none_iff.mp search _ listed] at answer
    contradiction
  | some other =>
    obtain ⟨same, alike⟩ := found search
    rw [alike, ← default, answer] at same
    exact same.symm

/-- The response that is found is the one that is chosen. -/
theorem resolveResponse?_eq_some_iff :
    description.resolveResponse? responses = some resolved ↔
      description.Chooses responses resolved := by
  have chosen : description.Chooses responses resolved ↔
      description.answerFor? responses resolved.status = some resolved ∧
        ((isSuccessStatus resolved.status = true ∧ ∀ other, isSuccessStatus other = true →
            description.Accepts responses other → ¬ other < resolved.status) ∨
          (resolved.status = "default" ∧ ∀ other, isSuccessStatus other = true →
            ¬ description.Accepts responses other)) := by
    constructor
    · rintro ⟨⟨_, preferred⟩, first⟩
      exact ⟨(answerFor?_eq_some_iff distinct).mpr ⟨rfl, first⟩, preferred⟩
    · rintro ⟨answer, preferred⟩
      exact ⟨⟨accepts_of_answer distinct answer, preferred⟩,
        ((answerFor?_eq_some_iff distinct).mp answer).2⟩
  rw [chosen, resolveResponse?_eq, Option.or_eq_some_iff, successAnswer?_eq_some_iff distinct,
    successAnswer?_eq_none_iff distinct, defaultAnswer?_eq_some_iff distinct]
  constructor
  · rintro (⟨answer, success⟩ | ⟨silent, answer, default⟩)
    · exact ⟨answer, .inl success⟩
    · exact ⟨answer, .inr ⟨default, silent⟩⟩
  · rintro ⟨answer, success | ⟨default, silent⟩⟩
    · exact .inl ⟨answer, success⟩
    · exact .inr ⟨silent, answer, default⟩

/-- Nothing is found exactly if no strategy has an answer for a success status or `default`. -/
theorem resolveResponse?_eq_none_iff :
    description.resolveResponse? responses = none ↔ ∀ status,
      isSuccessStatus status = true ∨ status = "default" →
        ¬ description.Accepts responses status := by
  rw [resolveResponse?_eq, Option.or_eq_none_iff, successAnswer?_eq_none_iff distinct]
  constructor
  · rintro ⟨silent, unanswered⟩ status (success | rfl) accepted
    · exact silent status success accepted
    · obtain ⟨resolved, answer⟩ :=
        Option.isSome_iff_exists.mp ((isSome_answerFor? distinct).mpr accepted)
      obtain ⟨same, _⟩ := (answerFor?_eq_some_iff distinct).mp answer
      rw [(defaultAnswer?_eq_some_iff distinct).mpr ⟨same ▸ answer, same⟩] at unanswered
      contradiction
  · intro silent
    refine ⟨fun status success => silent status (.inl success), ?_⟩
    cases search : description.defaultAnswer? responses with
    | none => rfl
    | some resolved =>
      obtain ⟨answer, default⟩ := (defaultAnswer?_eq_some_iff distinct).mp search
      exact absurd (accepts_of_answer distinct answer) (silent _ (.inr default))

end Searches

theorem accepts_perm {other : List (Text × ResponseContent)} (same : other.Perm responses) :
    description.Accepts other status ↔ description.Accepts responses status := by
  unfold Accepts
  simp only [same.mem_iff]

theorem chooses_perm {other : List (Text × ResponseContent)} (same : other.Perm responses) :
    description.Chooses other resolved ↔ description.Chooses responses resolved := by
  unfold Chooses Prefers
  simp only [accepts_perm same, same.mem_iff]

/-- The response is chosen by its status and its content, whatever the order of declaration. -/
theorem resolveResponse?_order_free (description : Description)
    {responses other : List (Text × ResponseContent)} (distinct : (responses.map (·.1)).Nodup)
    (same : other.Perm responses) :
    description.resolveResponse? other = description.resolveResponse? responses ∧
      (∀ resolved, description.resolveResponse? responses = some resolved ↔
        description.Chooses responses resolved) ∧
      (description.resolveResponse? responses = none ↔ ∀ status,
        isSuccessStatus status = true ∨ status = "default" →
          ¬ description.Accepts responses status) := by
  have distinctOther : (other.map (·.1)).Nodup := (same.map _).nodup_iff.mpr distinct
  refine ⟨Option.ext fun resolved => ?_, fun resolved => resolveResponse?_eq_some_iff distinct,
    resolveResponse?_eq_none_iff distinct⟩
  rw [resolveResponse?_eq_some_iff distinctOther, resolveResponse?_eq_some_iff distinct]
  exact chooses_perm same

/-- A success that no strategy reads, an envelope, an empty response and a fallback. -/
def inviteResponses : List (Text × ResponseContent) :=
  [("default", .noContent), ("204", .other "string"), ("404", .noContent),
    ("201", .inline "\x7b code: number; message: string \x7d"),
    ("200", .inline "\x7b sent: boolean \x7d")]

theorem resolveResponse?_invite :
    let description := (ofText "").value
    let resolved : ResolvedResponse :=
      ⟨"201", .statusEnvelope, ⟨.inline "\x7b code: number; message: string \x7d", none⟩⟩
    description.resolveResponse? inviteResponses.reverse = some resolved ∧
      description.Chooses inviteResponses resolved := by
  intro description resolved
  obtain ⟨same, chosen, _⟩ := description.resolveResponse?_order_free
    (show (inviteResponses.map (·.1)).Nodup by decide) (List.reverse_perm inviteResponses)
  have found : description.resolveResponse? inviteResponses = some resolved := by decide +kernel
  exact ⟨same.trans found, (chosen resolved).mp found⟩

end Description

end TypedClient
