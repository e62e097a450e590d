import Mathlib.Algebra.GroupWithZero.Nat
import TypedClient.Proofs.Artifact.Kinds

/-!
The keys of files. Main statement: files whose keys are new and distinct stand behind the files that
were there, in the order in which they are put, so that none gives way to another.
-/

namespace TypedClient

/-- What a file is found under. -/
def Artifact.key (artifact : Artifact) : Text × Option Text × ArtifactKind :=
  (artifact.server, artifact.tag, artifact.kind)

namespace ArtifactSet

theorem sameKey_iff_key {earlier artifact : Artifact} :
    earlier.sameKey artifact = true ↔ earlier.key = artifact.key := by
  rw [sameKey_iff, Artifact.key, Artifact.key, Prod.mk.injEq, Prod.mk.injEq]

theorem putInto_of_fresh {artifact : Artifact} {artifacts : List Artifact}
    (fresh : artifact.key ∉ artifacts.map Artifact.key) :
    putInto artifact artifacts = artifacts ++ [artifact] := by
  induction artifacts with
  | nil => rfl
  | cons earlier rest ih =>
    have other : ¬ earlier.sameKey artifact = true := fun same =>
      fresh (sameKey_iff_key.mp same ▸ List.mem_cons_self)
    have later : artifact.key ∉ rest.map Artifact.key := fun taken =>
      fresh (List.mem_cons_of_mem _ taken)
    rw [putInto, if_neg other, ih later]
    rfl

theorem putAll_of_fresh {set : ArtifactSet} {files : List Artifact}
    (distinct : (files.map Artifact.key).Nodup)
    (fresh : ∀ file ∈ files, file.key ∉ set.artifacts.map Artifact.key) :
    (set.putAll files).artifacts = set.artifacts ++ files := by
  induction files generalizing set with
  | nil => exact (List.append_nil _).symm
  | cons file rest ih =>
    obtain ⟨first, distinct⟩ := List.nodup_cons.mp distinct
    have put : (set.put file).artifacts = set.artifacts ++ [file] :=
      putInto_of_fresh (fresh file List.mem_cons_self)
    have later : ∀ other ∈ rest, other.key ∉ (set.put file).artifacts.map Artifact.key := by
      intro other listed taken
      rw [put, List.map_append, List.mem_append, List.map_singleton, List.mem_singleton] at taken
      rcases taken with before | same
      · exact fresh other (List.mem_cons_of_mem _ listed) before
      · exact first (same ▸ List.mem_map_of_mem listed)
    have step : set.putAll (file :: rest) = (set.put file).putAll rest := rfl
    rw [step, ih distinct later, put, List.append_assoc]
    rfl

end ArtifactSet

end TypedClient
