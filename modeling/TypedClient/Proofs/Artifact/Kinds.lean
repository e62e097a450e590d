import TypedClient.Artifact.Basic

/-!
The files of one kind. Main statements: what a set holds of a kind is decided by the files of that
kind that were put, so putting others does not show; and of the files that are put for distinct tags
every one is there.
-/

namespace TypedClient

namespace ArtifactSet

/-- The files of one kind, in their order. -/
def only (set : ArtifactSet) (kind : ArtifactKind) : ArtifactSet :=
  ⟨set.artifacts.filter fun artifact => artifact.kind = kind⟩

variable {kind : ArtifactKind} {artifact : Artifact}

theorem only_only (set : ArtifactSet) (kind : ArtifactKind) :
    (set.only kind).only kind = set.only kind := by
  simp [only]

theorem only_only_of_ne {set : ArtifactSet} {other : ArtifactKind} (different : other ≠ kind) :
    (set.only other).only kind = empty := by
  refine congrArg ArtifactSet.mk (List.filter_eq_nil_iff.mpr fun artifact member own => ?_)
  have otherwise := (List.mem_filter.mp member).2
  exact different ((of_decide_eq_true otherwise).symm.trans (of_decide_eq_true own))

theorem kind_eq_of_sameKey {earlier : Artifact} (same : earlier.sameKey artifact = true) :
    earlier.kind = artifact.kind := by
  simp only [Artifact.sameKey, Bool.and_eq_true, beq_iff_eq] at same
  exact same.2

theorem filter_putInto_of_ne (other : artifact.kind ≠ kind) (artifacts : List Artifact) :
    (putInto artifact artifacts).filter (fun artifact => artifact.kind = kind) =
      artifacts.filter fun artifact => artifact.kind = kind := by
  induction artifacts with
  | nil => simp [putInto, other]
  | cons earlier rest ih =>
    rw [putInto]
    split
    · rename_i same
      have earlierOther : earlier.kind ≠ kind := kind_eq_of_sameKey same ▸ other
      simp [other, earlierOther]
    · rw [List.filter_cons, List.filter_cons, ih]

theorem filter_putInto (here : artifact.kind = kind) (artifacts : List Artifact) :
    (putInto artifact artifacts).filter (fun artifact => artifact.kind = kind) =
      putInto artifact (artifacts.filter fun artifact => artifact.kind = kind) := by
  induction artifacts with
  | nil => simp [putInto, here]
  | cons earlier rest ih =>
    rw [putInto]
    split
    · rename_i same
      have earlierHere : earlier.kind = kind := (kind_eq_of_sameKey same).trans here
      simp [putInto, here, earlierHere, same]
    · rename_i other
      rw [List.filter_cons, List.filter_cons, ih]
      split
      · rw [putInto, if_neg other]
      · rfl

theorem only_put (set : ArtifactSet) (artifact : Artifact) (kind : ArtifactKind) :
    (set.put artifact).only kind =
      if artifact.kind = kind then (set.only kind).put artifact else set.only kind := by
  split
  · rename_i here
    exact congrArg ArtifactSet.mk (filter_putInto here set.artifacts)
  · rename_i other
    exact congrArg ArtifactSet.mk (filter_putInto_of_ne other set.artifacts)

/-- Of files that are put, those of the kind count. -/
theorem only_putAll (set : ArtifactSet) (artifacts : List Artifact) (kind : ArtifactKind) :
    (set.putAll artifacts).only kind =
      (set.only kind).putAll (artifacts.filter fun artifact => artifact.kind = kind) := by
  induction artifacts generalizing set with
  | nil => rfl
  | cons artifact rest ih =>
    have step : set.putAll (artifact :: rest) = (set.put artifact).putAll rest := rfl
    rw [step, ih, only_put, List.filter_cons]
    by_cases here : artifact.kind = kind
    · simp [here, putAll]
    · simp [here]

theorem content?_only (set : ArtifactSet) (server : Text) (tag : Option Text)
    (kind : ArtifactKind) :
    (set.only kind).content? server tag kind = set.content? server tag kind := by
  unfold content? get? only
  rw [List.find?_filter]
  refine congrArg _ (congrArg (List.find? · set.artifacts) (funext fun artifact => ?_))
  rw [Bool.eq_iff_iff]
  simp +contextual [iff_def]

section Contents

variable {server : Text} {tag : Option Text}

theorem sameKey_iff {earlier : Artifact} : earlier.sameKey artifact = true ↔
    earlier.server = artifact.server ∧ earlier.tag = artifact.tag ∧
      earlier.kind = artifact.kind := by
  simp [Artifact.sameKey, and_assoc]

/-- A file that is put is there. -/
theorem content?_put_self (set : ArtifactSet) (artifact : Artifact) :
    (set.put artifact).content? artifact.server artifact.tag artifact.kind =
      some artifact.content := by
  unfold content? get? put
  dsimp only
  induction set.artifacts with
  | nil => simp [putInto]
  | cons earlier rest ih =>
    rw [putInto]
    by_cases same : earlier.sameKey artifact = true
    · simp [same]
    · have other : (earlier.server == artifact.server && earlier.tag == artifact.tag &&
          earlier.kind == artifact.kind) = false := by
        simpa [Artifact.sameKey] using same
      rw [if_neg same, List.find?_cons, other]
      exact ih

/-- Another file that is put does not show. -/
theorem content?_put_of_ne (set : ArtifactSet)
    (other : ¬(artifact.server = server ∧ artifact.tag = tag ∧ artifact.kind = kind)) :
    (set.put artifact).content? server tag kind = set.content? server tag kind := by
  unfold content? get? put
  dsimp only
  have skipped : (artifact.server == server && artifact.tag == tag &&
      artifact.kind == kind) = false := by
    rw [Bool.eq_false_iff]
    simpa [and_assoc] using other
  induction set.artifacts with
  | nil => simp [putInto, skipped]
  | cons earlier rest ih =>
    rw [putInto]
    by_cases same : earlier.sameKey artifact = true
    · obtain ⟨inServer, inTag, ofKind⟩ := sameKey_iff.mp same
      rw [if_pos same, List.find?_cons, skipped, List.find?_cons, inServer, inTag, ofKind, skipped]
    · rw [if_neg same, List.find?_cons, List.find?_cons]
      split
      · rfl
      · exact ih

theorem content?_putAll_of_ne (set : ArtifactSet) {artifacts : List Artifact}
    (others : ∀ artifact ∈ artifacts,
      ¬(artifact.server = server ∧ artifact.tag = tag ∧ artifact.kind = kind)) :
    (set.putAll artifacts).content? server tag kind = set.content? server tag kind := by
  induction artifacts generalizing set with
  | nil => rfl
  | cons artifact rest ih =>
    have later := ih (set.put artifact) fun other listed =>
      others other (List.mem_cons_of_mem _ listed)
    exact later.trans (set.content?_put_of_ne (others artifact List.mem_cons_self))

/-- Of one file for each tag, every one is there. -/
theorem content?_putAll_tagged (set : ArtifactSet) {found : List (Text × Text)} {tag content : Text}
    (distinct : (found.map (·.1)).Nodup) (listed : (tag, content) ∈ found) :
    (set.putAll (found.map fun entry => ⟨server, some entry.1, kind, entry.2⟩)).content?
      server (some tag) kind = some content := by
  induction found generalizing set with
  | nil => contradiction
  | cons entry rest ih =>
    obtain ⟨fresh, distinct⟩ := List.nodup_cons.mp distinct
    have step : set.putAll ((entry :: rest).map fun entry =>
          (⟨server, some entry.1, kind, entry.2⟩ : Artifact)) =
        (set.put ⟨server, some entry.1, kind, entry.2⟩).putAll
          (rest.map fun entry => ⟨server, some entry.1, kind, entry.2⟩) := rfl
    rw [step]
    rcases List.mem_cons.mp listed with rfl | later
    · rw [content?_putAll_of_ne, content?_put_self]
      intro artifact written
      obtain ⟨other, inside, rfl⟩ := List.mem_map.mp written
      rintro ⟨-, same, -⟩
      exact fresh (List.mem_map.mpr ⟨other, inside, Option.some.inj same⟩)
    · exact ih _ distinct later

end Contents

end ArtifactSet

end TypedClient
