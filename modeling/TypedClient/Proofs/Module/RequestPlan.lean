import TypedClient.Module.Wrappers
import TypedClient.Proofs.Name.Characters
import TypedClient.Proofs.Traversal

/-!
What a wrapper takes out of its parameters. Main statement: it takes every path and header parameter
and no query parameter, the placeholders of the path first and in their order.
-/

namespace TypedClient

open Text Name

namespace Request

variable {parameters : List Parameter} {endpoint : Endpoint}

theorem mem_namesAt {location : Location} {name : Text} :
    name ∈ namesAt parameters location ↔
      ∃ parameter ∈ parameters, parameter.name = name ∧ parameter.location = location := by
  simp only [namesAt, List.mem_map, List.mem_filter, beq_iff_eq]
  constructor
  · rintro ⟨parameter, ⟨listed, located⟩, named⟩
    exact ⟨parameter, listed, named, located⟩
  · rintro ⟨parameter, listed, named, located⟩
    exact ⟨parameter, ⟨listed, located⟩, named⟩

/-- What is taken out of the parameters: the placeholders in order, path parameters without one,
and headers. -/
def keysOf (parameters : List Parameter) (endpoint : Endpoint) : List Text :=
  endpoint.placeholders.map (·.1) ++
    (namesAt parameters .path).filter (· ∉ endpoint.placeholders.map (·.1)) ++
    namesAt parameters .header

theorem bindings_plan (parameters : List Parameter) (endpoint : Endpoint) :
    (plan parameters endpoint).bindings = List.zipWith Binding.mk (keysOf parameters endpoint)
      (uniques reservedNames ((keysOf parameters endpoint).map identifier)) := by
  unfold bindings plan keysOf
  dsimp only
  rw [← List.drop_drop, List.append_assoc, List.take_append_drop, List.take_append_drop]

theorem keys_plan (parameters : List Parameter) (endpoint : Endpoint) :
    (plan parameters endpoint).bindings.map (·.key) = keysOf parameters endpoint := by
  rw [bindings_plan, map_zipWith_left (f := Binding.mk) (g := Binding.key) (h := id) (fun _ _ => rfl)
    (by simp), List.map_id]

theorem names_plan (parameters : List Parameter) (endpoint : Endpoint) :
    (plan parameters endpoint).bindings.map (·.name) =
      uniques reservedNames ((keysOf parameters endpoint).map identifier) := by
  rw [bindings_plan, map_zipWith_right (f := Binding.mk) (g := Binding.name) (h := id) (fun _ _ => rfl)
    (by simp), List.map_id]

theorem key_of_mem_plan {binding : Binding}
    (member : binding ∈ (plan parameters endpoint).bindings) :
    binding.key ∈ keysOf parameters endpoint :=
  keys_plan parameters endpoint ▸ List.mem_map_of_mem member

theorem bare_of_mem_plan {binding : Binding}
    (member : binding ∈ (plan parameters endpoint).bindings) : binding.name.all isBare = true := by
  have named : binding.name ∈ (plan parameters endpoint).bindings.map (·.name) :=
    List.mem_map_of_mem member
  rw [names_plan] at named
  refine all_of_mem_uniques isBare_of_isDigit ?_ named
  intro base based
  obtain ⟨key, _, rfl⟩ := List.mem_map.mp based
  exact all_identifier key

theorem pathKeys_plan (parameters : List Parameter) (endpoint : Endpoint) :
    (plan parameters endpoint).pathArguments.map (·.key) = endpoint.placeholders.map (·.1) := by
  have keys := keys_plan parameters endpoint
  rw [keysOf, List.append_assoc, bindings, List.append_assoc, List.map_append] at keys
  exact (List.append_inj keys (by simp [plan])).1

theorem headerKeys_plan (parameters : List Parameter) (endpoint : Endpoint) :
    (plan parameters endpoint).headers.map (·.key) = namesAt parameters .header := by
  have keys := keys_plan parameters endpoint
  rw [keysOf, bindings, List.map_append] at keys
  refine (List.append_inj' keys ?_).2
  simp only [plan, List.length_map, List.length_drop, List.length_zipWith, length_uniques,
    List.length_append, Nat.min_self]
  omega

/-- All path and header parameters are taken out, and nothing else. -/
theorem mem_keys_plan {key : Text} (declared : ∀ placeholder ∈ endpoint.placeholders.map (·.1),
      ∃ parameter ∈ parameters, parameter.name = placeholder ∧ parameter.location = .path) :
    key ∈ (plan parameters endpoint).bindings.map (·.key) ↔
      ∃ parameter ∈ parameters, parameter.name = key ∧ parameter.location ≠ .query := by
  rw [keys_plan]
  simp only [keysOf, List.mem_append]
  constructor
  · rintro ((placeholder | unused) | header)
    · obtain ⟨parameter, listed, named, location⟩ := declared key placeholder
      exact ⟨parameter, listed, named, by simp [location]⟩
    · obtain ⟨parameter, listed, named, location⟩ :=
        mem_namesAt.mp (List.mem_filter.mp unused).1
      exact ⟨parameter, listed, named, by simp [location]⟩
    · obtain ⟨parameter, listed, named, location⟩ := mem_namesAt.mp header
      exact ⟨parameter, listed, named, by simp [location]⟩
  · rintro ⟨parameter, listed, named, other⟩
    cases location : parameter.location with
    | path =>
      have inPath : key ∈ namesAt parameters .path :=
        mem_namesAt.mpr ⟨parameter, listed, named, location⟩
      by_cases placeholder : key ∈ endpoint.placeholders.map (·.1)
      · exact .inl (.inl placeholder)
      · exact .inl (.inr (List.mem_filter.mpr ⟨inPath, by simpa using placeholder⟩))
    | query => exact absurd location other
    | header => exact .inr (mem_namesAt.mpr ⟨parameter, listed, named, location⟩)

end Request

end TypedClient
