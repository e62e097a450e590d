import Mathlib.Algebra.GroupWithZero.Nat
import Mathlib.Data.List.Induction
import TypedClient.Proofs.Operation.AliasNames
import TypedClient.Proofs.Table
import TypedClient.Proofs.Traversal
import TypedClient.Tag.Classification

/-!
How paths are sorted into tags. Main statement: a classification is a partition. Each path stands
once, either under the one tag it has or among the paths that are left out, tags and counts agree
with that, and the entries of all tags together are all entries that are not left out.
-/

namespace TypedClient

open Text

namespace Classification

variable {excludedTag : Option Text} {done : List Text} {found : Classification} {path : Text}

/-- Whether a path gets no tag: it is internal, or it has the tag that is to be left out. -/
def leavesOut (excludedTag : Option Text) (path : Text) : Bool :=
  Path.tag? path = none || Path.tag? path = excludedTag

theorem tagUnless_eq (excludedTag : Option Text) (path : Text) :
    tagUnless excludedTag path = if leavesOut excludedTag path then none else Path.tag? path := by
  unfold tagUnless leavesOut
  cases Path.tag? path with
  | none => rfl
  | some tag =>
    by_cases left : excludedTag = some tag
    · simp [left]
    · simp [left, Ne.symm left]

theorem isSome_tagUnless (excludedTag : Option Text) (path : Text) :
    (tagUnless excludedTag path).isSome = !leavesOut excludedTag path := by
  rw [tagUnless_eq]
  cases left : leavesOut excludedTag path with
  | true => rfl
  | false =>
    cases tagged : Path.tag? path with
    | none => simp [leavesOut, tagged] at left
    | some tag => rfl

/-- The paths of a list that get this tag. -/
def having (excludedTag : Option Text) (paths : List Text) (tag : Text) : List Text :=
  paths.filter fun path => tagUnless excludedTag path = some tag

/-- The four collections of a classification are in step with the paths sorted so far. -/
structure Sorts (excludedTag : Option Text) (done : List Text) (found : Classification) : Prop where
  assignments : found.assignments =
    done.filterMap fun path => (tagUnless excludedTag path).map fun tag => (path, tag)
  excluded : found.excluded = done.filter fun path => tagUnless excludedTag path = none
  ascending : Table.Ascending found.tagNames
  tags : ∀ tag, found.tags.lookup tag =
    if having excludedTag done tag = [] then none
    else some ⟨tag, (having excludedTag done tag).length, having excludedTag done tag⟩

theorem Sorts.paths_assignments (sorts : Sorts excludedTag done found) :
    found.assignments.map (·.1) = done.filter fun path => (tagUnless excludedTag path).isSome := by
  rw [sorts.assignments, map_filterMap_of_key]
  · simp only [Option.isSome_map]
  · intro path pair paired
    obtain ⟨tag, _, rfl⟩ := Option.map_eq_some_iff.mp paired
    rfl

theorem Sorts.add (sorts : Sorts excludedTag done found) (fresh : path ∉ done) :
    Sorts excludedTag (done ++ [path]) (add excludedTag found path) := by
  unfold Classification.add
  cases tagged : tagUnless excludedTag path with
  | none =>
    have others : ∀ tag, having excludedTag (done ++ [path]) tag = having excludedTag done tag := by
      intro tag
      simp [having, tagged]
    exact ⟨by simp [sorts.assignments, tagged], by simp [sorts.excluded, tagged], sorts.ascending,
      fun tag => by rw [others]; exact sorts.tags tag⟩
  | some tag =>
    have unassigned : path ∉ found.assignments.map (·.1) := fun taken =>
      fresh (List.mem_of_mem_filter (sorts.paths_assignments ▸ taken))
    refine ⟨?_, by simp [sorts.excluded, tagged], ?_, fun other => ?_⟩
    · simp only [Table.put_of_not_mem tag unassigned]
      simp [sorts.assignments, tagged]
    · rw [tagNames, Table.keys_alter]
      exact Table.ascending_insertSorted sorts.ascending tag
    · have ascending : Table.Ascending (found.tags.map (·.1)) := sorts.ascending
      rw [Table.lookup_alter ascending]
      by_cases same : other = tag
      · have grown : having excludedTag (done ++ [path]) tag =
            having excludedTag done tag ++ [path] := by
          simp [having, tagged]
        rw [if_pos same, same, grown, if_neg (by simp), sorts.tags tag]
        by_cases first : having excludedTag done tag = []
        · simp [first, TagEntry.start, TagEntry.push]
        · simp [first, TagEntry.push]
      · have kept : having excludedTag (done ++ [path]) other = having excludedTag done other := by
          simp [having, tagged, Ne.symm same]
        rw [if_neg same, kept]
        exact sorts.tags other

/-- A path seen before is passed over, so that the paths that count are those of first
occurrence. -/
theorem sorts_foldl (paths : List Text) :
    (∀ path, path ∈ (paths.foldl (addUnseen excludedTag) ([], empty)).1 ↔ path ∈ paths) ∧
      Sorts excludedTag paths.eraseDups (paths.foldl (addUnseen excludedTag) ([], empty)).2 := by
  induction paths using List.reverseRecOn with
  | nil => exact ⟨fun _ => Iff.rfl, rfl, rfl, List.Pairwise.nil, fun _ => rfl⟩
  | append_singleton front path ih =>
    obtain ⟨seen, sorts⟩ := ih
    rw [List.foldl_concat, List.eraseDups_append]
    generalize front.foldl (addUnseen excludedTag) ([], empty) = reached at seen sorts ⊢
    unfold addUnseen
    by_cases before : path ∈ front
    · have dropped : [path].removeAll front = [] := by simp [List.removeAll, before]
      rw [if_pos ((seen path).mpr before), dropped, List.eraseDups_nil, List.append_nil]
      refine ⟨fun other => ?_, sorts⟩
      rw [seen, List.mem_append, List.mem_singleton]
      exact ⟨.inl, fun inside => inside.elim id fun same => same ▸ before⟩
    · have kept : ([path].removeAll front).eraseDups = [path] := by
        simp [List.removeAll, before, List.eraseDups_cons]
      rw [if_neg fun taken => before ((seen path).mp taken), kept]
      refine ⟨fun other => ?_, sorts.add fun taken => before (List.mem_eraseDups.mp taken)⟩
      rw [List.mem_cons, seen, List.mem_append, List.mem_singleton, or_comm]

theorem sorts_ofPaths (excludedTag : Option Text) (paths : List Text) :
    Sorts excludedTag paths.eraseDups (ofPaths excludedTag paths) :=
  (sorts_foldl paths).2

theorem ascending_ofPaths (excludedTag : Option Text) (paths : List Text) :
    Table.Ascending (ofPaths excludedTag paths).tagNames :=
  (sorts_ofPaths excludedTag paths).ascending

namespace Sorts

variable (sorts : Sorts excludedTag done found)

include sorts

/-- A tag is listed with exactly the paths that get it. -/
theorem mem_tags {tag : Text} {entry : TagEntry} : (tag, entry) ∈ found.tags ↔
    having excludedTag done tag ≠ [] ∧
      entry = ⟨tag, (having excludedTag done tag).length, having excludedTag done tag⟩ := by
  have looked := sorts.tags tag
  constructor
  · intro listed
    rw [Table.lookup_of_mem sorts.ascending.nodup listed] at looked
    split at looked
    · contradiction
    · exact ⟨by assumption, Option.some.inj looked⟩
  · rintro ⟨filled, rfl⟩
    rw [if_neg filled] at looked
    exact Table.mem_of_lookup looked

theorem mem_tagNames {tag : Text} : tag ∈ found.tagNames ↔ having excludedTag done tag ≠ [] := by
  constructor
  · intro listed
    obtain ⟨⟨_, entry⟩, member, rfl⟩ := List.mem_map.mp listed
    exact (sorts.mem_tags.mp member).1
  · exact fun filled => List.mem_map.mpr ⟨_, sorts.mem_tags.mpr ⟨filled, rfl⟩, rfl⟩

theorem paths_of_tag (tag : Text) :
    (found.assignments.filter fun pair => pair.2 = tag).map (·.1) =
      having excludedTag done tag := by
  rw [sorts.assignments, List.filter_filterMap, List.map_filterMap, having,
    ← List.filterMap_eq_filter]
  refine List.filterMap_congr fun path _ => ?_
  cases tagged : tagUnless excludedTag path with
  | none => simp [Option.guard, tagged]
  | some other => by_cases same : other = tag <;> simp [Option.guard, tagged, same]

theorem tag_listed {pair : Text × Text} (assigned : pair ∈ found.assignments) :
    Path.tag? pair.1 = some pair.2 ∧ pair.2 ∈ found.tagNames := by
  rw [sorts.assignments] at assigned
  obtain ⟨path, member, paired⟩ := List.mem_filterMap.mp assigned
  obtain ⟨tag, tagged, rfl⟩ := Option.map_eq_some_iff.mp paired
  refine ⟨(Option.filter_eq_some_iff.mp tagged).1, sorts.mem_tagNames.mpr ?_⟩
  exact List.ne_nil_of_mem (List.mem_filter.mpr ⟨member, by simpa using tagged⟩)

theorem tagOf?_of_mem (distinct : done.Nodup) (member : path ∈ done) :
    found.tagOf? path = tagUnless excludedTag path := by
  have keys : (found.assignments.map (·.1)).Nodup := by
    rw [sorts.paths_assignments]
    exact distinct.filter _
  cases tagged : tagUnless excludedTag path with
  | none =>
    refine Table.lookup_eq_none fun assigned => ?_
    rw [sorts.paths_assignments] at assigned
    simp [tagged] at assigned
  | some tag =>
    refine Table.lookup_of_mem keys ?_
    rw [sorts.assignments]
    exact List.mem_filterMap.mpr ⟨path, member, by simp [tagged]⟩

theorem listed_iff (member : path ∈ done) :
    decide (∃ tag ∈ found.tagNames, tagUnless excludedTag path = some tag) =
      (tagUnless excludedTag path).isSome := by
  cases tagged : tagUnless excludedTag path with
  | none => simp
  | some tag =>
    have listed : having excludedTag done tag ≠ [] :=
      List.ne_nil_of_mem (List.mem_filter.mpr ⟨member, by simpa using tagged⟩)
    simpa using sorts.mem_tagNames.mpr listed

/-- The counts of all tags add up to the number of paths that have a tag. -/
theorem sum_counts : (found.tags.map fun tagged => tagged.2.pathCount).sum =
    found.assignments.length := by
  have counts : (found.tags.map fun tagged => tagged.2.pathCount) =
      found.tagNames.map fun tag => (having excludedTag done tag).length := by
    rw [tagNames, List.map_map]
    refine List.map_congr_left fun tagged listed => ?_
    simp only [Function.comp, (sorts.mem_tags.mp listed).2]
  have gathered := flatMap_filter_key_perm (tagUnless excludedTag) done sorts.ascending.nodup
  have covered : (done.filter fun path =>
      ∃ tag ∈ found.tagNames, tagUnless excludedTag path = some tag) =
        done.filter fun path => (tagUnless excludedTag path).isSome :=
    List.filter_congr fun path member => sorts.listed_iff member
  rw [covered, ← sorts.paths_assignments] at gathered
  rw [counts, ← List.length_flatMap]
  simpa [having] using gathered.length_eq

/-- The document gives the counts and paths of the tags as they were gathered. -/
theorem summary_eq (server : Text) :
    found.summary server =
      { server
        totalPaths := found.assignments.length
        tags := found.tagNames
        counts := found.tags.map fun tagged => (tagged.1, tagged.2.pathCount)
        paths := found.tags.map fun tagged => (tagged.1, tagged.2.paths)
        excluded := found.excluded } := by
  have named : ∀ {β : Type} (f : TagEntry → β),
      Table.ofSorted (found.tags.map fun tagged => (tagged.2.name, f tagged.2)) =
        found.tags.map fun tagged => (tagged.1, f tagged.2) := by
    intro β f
    have same : (found.tags.map fun tagged => (tagged.2.name, f tagged.2)) =
        found.tags.map fun tagged => (tagged.1, f tagged.2) :=
      List.map_congr_left fun tagged listed => by rw [(sorts.mem_tags.mp listed).2]
    rw [same]
    apply Table.ofSorted_of_ascending
    rw [List.map_map]
    exact sorts.ascending
  unfold summary
  rw [named TagEntry.pathCount, named TagEntry.paths]

end Sorts

theorem nodup_paths_of_model {text : Text} {entries : List PathEntry}
    (extracted : (Description.ofText text).value.model.value = .ok entries) :
    (entries.map (·.path)).Nodup := by
  have same : entries = (Description.ofText text).value.pathEntries.value :=
    Description.eq_of_model extracted
  rw [same, Description.paths_pathEntries (Description.indexed_ofText text)]
  exact (nodup_eraseDups _).filter _

/-- The entries of all tags together are the entries whose path is not left out. -/
theorem entriesOf_perm (excludedTag : Option Text) (entries : List PathEntry) :
    let found := ofEntries excludedTag entries
    (found.tagNames.flatMap fun tag => found.entriesOf tag entries).Perm
      (entries.filter fun entry => !leavesOut excludedTag entry.path) := by
  intro found
  have sorts : Sorts excludedTag _ found := sorts_ofPaths excludedTag (entries.map (·.path))
  have gathered := flatMap_filter_key_perm (fun entry : PathEntry => found.tagOf? entry.path)
    entries sorts.ascending.nodup
  have kept : (entries.filter fun entry =>
      ∃ tag ∈ found.tagNames, found.tagOf? entry.path = some tag) =
        entries.filter fun entry => !leavesOut excludedTag entry.path := by
    refine List.filter_congr fun entry member => ?_
    have present : entry.path ∈ (entries.map (·.path)).eraseDups :=
      List.mem_eraseDups.mpr (List.mem_map_of_mem member)
    rw [sorts.tagOf?_of_mem (nodup_eraseDups _) present, sorts.listed_iff present, isSome_tagUnless]
  rw [kept] at gathered
  exact gathered

/-- A classification of these paths: each of them once, with the one tag it has or among those left
out, and tags and counts to match. -/
structure Partitions (excludedTag : Option Text) (paths : List Text) (found : Classification) :
    Prop where
  assigned : found.assignments.map (·.1) =
    paths.eraseDups.filter fun path => !leavesOut excludedTag path
  excluded : found.excluded = paths.eraseDups.filter (leavesOut excludedTag)
  once : (found.assignments.map (·.1) ++ found.excluded).Perm paths.eraseDups ∧
    (found.assignments.map (·.1) ++ found.excluded).Nodup
  tagged : ∀ pair ∈ found.assignments, Path.tag? pair.1 = some pair.2 ∧ pair.2 ∈ found.tagNames
  ascending : Table.Ascending found.tagNames
  entries : ∀ listed ∈ found.tags, listed.2.name = listed.1 ∧ listed.2.paths ≠ [] ∧
    listed.2.paths = (found.assignments.filter fun pair => pair.2 = listed.1).map (·.1) ∧
    listed.2.pathCount = listed.2.paths.length
  counts : ∀ server, (found.summary server).tags = (found.summary server).counts.map (·.1) ∧
    ((found.summary server).counts.map (·.2)).sum = (found.summary server).totalPaths

theorem Sorts.partitions {paths : List Text} (sorts : Sorts excludedTag paths.eraseDups found) :
    Partitions excludedTag paths found := by
  have assigned : found.assignments.map (·.1) =
      paths.eraseDups.filter fun path => !leavesOut excludedTag path := by
    rw [sorts.paths_assignments]
    exact List.filter_congr fun path _ => isSome_tagUnless excludedTag path
  have excluded : found.excluded = paths.eraseDups.filter (leavesOut excludedTag) := by
    rw [sorts.excluded]
    refine List.filter_congr fun path _ => ?_
    rw [← Bool.not_not (leavesOut excludedTag path), ← isSome_tagUnless]
    cases tagUnless excludedTag path <;> rfl
  have whole : (found.assignments.map (·.1) ++ found.excluded).Perm paths.eraseDups := by
    rw [assigned, excluded]
    exact List.perm_append_comm.trans (List.filter_append_perm _ _)
  refine ⟨assigned, excluded, ⟨whole, whole.nodup_iff.mpr (nodup_eraseDups paths)⟩,
    fun pair member => sorts.tag_listed member, sorts.ascending, ?_, fun server => ?_⟩
  · rintro ⟨tag, entry⟩ listed
    obtain ⟨filled, rfl⟩ := sorts.mem_tags.mp listed
    exact ⟨rfl, filled, (sorts.paths_of_tag tag).symm, rfl⟩
  · rw [sorts.summary_eq]
    refine ⟨?_, ?_⟩
    · rw [List.map_map]
      rfl
    · rw [List.map_map]
      exact sorts.sum_counts

/-- Sorting paths into tags is a partition, and so is what it makes of the entries of a model. -/
theorem partitions_ofPaths (excludedTag : Option Text) (paths : List Text) :
    Partitions excludedTag paths (ofPaths excludedTag paths) ∧
    ∀ text entries, (Description.ofText text).value.model.value = .ok entries →
      let found := ofEntries excludedTag entries
      (entries.map (·.path)).Nodup ∧
      (found.tagNames.flatMap fun tag => found.entriesOf tag entries).Perm
        (entries.filter fun entry => entry.path ∉ found.excluded) ∧
      ∀ tag, (found.entriesOf tag entries).Sublist entries ∧
        ∀ entry ∈ found.entriesOf tag entries, Path.tag? entry.path = some tag := by
  refine ⟨(sorts_ofPaths excludedTag paths).partitions, fun text entries extracted => ?_⟩
  intro found
  have sorts : Sorts excludedTag _ found := sorts_ofPaths excludedTag (entries.map (·.path))
  have kept : (entries.filter fun entry => entry.path ∉ found.excluded) =
      entries.filter fun entry => !leavesOut excludedTag entry.path := by
    refine List.filter_congr fun entry member => ?_
    have present : entry.path ∈ (entries.map (·.path)).eraseDups :=
      List.mem_eraseDups.mpr (List.mem_map_of_mem member)
    rw [sorts.partitions.excluded]
    simp [List.mem_filter, present]
  refine ⟨nodup_paths_of_model extracted, ?_, fun tag => ⟨List.filter_sublist, ?_⟩⟩
  · rw [kept]
    exact entriesOf_perm excludedTag entries
  · intro entry member
    obtain ⟨_, tagged⟩ := List.mem_filter.mp member
    have assigned : (entry.path, tag) ∈ found.assignments :=
      Table.mem_of_lookup (of_decide_eq_true tagged)
    exact (sorts.tag_listed assigned).1

/-- Paths of two versions, one of them internal, and one whose tag is left out. -/
def fixturesText : Text :=
  "interface paths \x7b '/v1/users': \x7b \x7d; '/matches': \x7b \x7d; '/v1/internal/x': \x7b \x7d; " ++
    "'/users/\x7bid\x7d': \x7b \x7d; '/users': \x7b \x7d \x7d"

def fixtures : List PathEntry := (Description.ofText fixturesText).value.pathEntries.value

theorem fixtures_partitioned :
    (Description.ofText fixturesText).value.model.value = .ok fixtures ∧
    let found := ofEntries (some "matches") fixtures
    Partitions (some "matches") ["/users", "/matches", "/users"]
      (ofPaths (some "matches") ["/users", "/matches", "/users"]) ∧
    (fixtures.map (·.path)).Nodup ∧
    (found.tagNames.flatMap fun tag => found.entriesOf tag fixtures).Perm
      (fixtures.filter fun entry => entry.path ∉ found.excluded) ∧
    ∀ tag, (found.entriesOf tag fixtures).Sublist fixtures ∧
      ∀ entry ∈ found.entriesOf tag fixtures, Path.tag? entry.path = some tag := by
  have extracted : (Description.ofText fixturesText).value.model.value = .ok fixtures := by
    decide +kernel
  obtain ⟨first, later⟩ := partitions_ofPaths (some "matches") ["/users", "/matches", "/users"]
  exact ⟨extracted, first, later fixturesText fixtures extracted⟩

end Classification

end TypedClient
