import Mathlib.Data.List.FinRange
import Showcase.Registry

set_option autoImplicit false

namespace Showcase.Registry

def Indexes (entries : List SampleEntry) (done : List (Fin entries.length))
    (index : Std.HashMap String (Fin entries.length)) : Prop :=
  ∀ id position, index[id]? = some position ↔ position ∈ done ∧ (entries.get position).id.text = id

theorem index_step_indexes (entries : List SampleEntry) (done : List (Fin entries.length))
    (index next : Std.HashMap String (Fin entries.length)) (position : Fin entries.length)
    (indexes : Indexes entries done index) (stepped : indexStep entries index position = .ok next) :
    Indexes entries (done ++ [position]) next := by
  unfold indexStep at stepped
  dsimp only at stepped
  split at stepped
  · cases stepped
  · rename_i fresh
    cases stepped
    have absent : ∀ other ∈ done, (entries.get other).id.text ≠ (entries.get position).id.text := by
      intro other member same
      have held := (indexes _ other).mpr ⟨member, same⟩
      rw [Std.HashMap.contains_eq_isSome_getElem?, held] at fresh
      exact fresh rfl
    intro id other
    rw [Std.HashMap.getElem?_insert]
    by_cases same : (entries.get position).id.text = id
    · rw [if_pos (beq_iff_eq.mpr same)]
      constructor
      · intro found
        cases found
        exact ⟨by simp, same⟩
      · rintro ⟨member, holds⟩
        rcases List.mem_append.mp member with before | here
        · exact absurd (holds.trans same.symm) (absent other before)
        · rw [List.mem_singleton.mp here]
    · rw [if_neg (fun equal => same (beq_iff_eq.mp equal)), indexes id other]
      constructor
      · rintro ⟨member, holds⟩
        exact ⟨List.mem_append_left _ member, holds⟩
      · rintro ⟨member, holds⟩
        rcases List.mem_append.mp member with before | here
        · exact ⟨before, holds⟩
        · exact absurd (List.mem_singleton.mp here ▸ holds) same

theorem index_fold_indexes (entries : List SampleEntry) (rest done : List (Fin entries.length))
    (index final : Std.HashMap String (Fin entries.length)) (indexes : Indexes entries done index)
    (folded : rest.foldlM (indexStep entries) index = .ok final) : Indexes entries (done ++ rest) final := by
  induction rest generalizing done index with
  | nil =>
      cases folded
      simpa using indexes
  | cons position rest ih =>
      rw [List.foldlM_cons] at folded
      cases stepped : indexStep entries index position with
      | error error =>
          rw [stepped] at folded
          cases folded
      | ok next =>
          rw [stepped] at folded
          have before := index_step_indexes entries done index next position indexes stepped
          simpa using ih (done ++ [position]) next before folded

theorem index_of_indexes (entries : List SampleEntry) (index : Std.HashMap String (Fin entries.length))
    (built : indexOf entries = .ok index) : Indexes entries (List.finRange entries.length) index := by
  have initial : Indexes entries [] ∅ := by
    intro id position
    simp
  simpa using index_fold_indexes entries (List.finRange entries.length) [] ∅ index initial built

theorem index_step_ok (entries : List SampleEntry) (done : List (Fin entries.length))
    (index : Std.HashMap String (Fin entries.length)) (position : Fin entries.length)
    (indexes : Indexes entries done index)
    (fresh : ∀ other ∈ done, (entries.get other).id.text ≠ (entries.get position).id.text) :
    ∃ next, indexStep entries index position = .ok next := by
  have absent : ¬ index.contains (entries.get position).id.text = true := by
    intro present
    rw [Std.HashMap.contains_eq_isSome_getElem?] at present
    obtain ⟨other, held⟩ := Option.isSome_iff_exists.mp present
    obtain ⟨member, same⟩ := (indexes _ other).mp held
    exact fresh other member same
  exact ⟨index.insert (entries.get position).id.text position, if_neg absent⟩

theorem index_fold_ok (entries : List SampleEntry) (rest done : List (Fin entries.length))
    (index : Std.HashMap String (Fin entries.length)) (indexes : Indexes entries done index)
    (distinct : ((done ++ rest).map fun position => (entries.get position).id.text).Nodup) :
    ∃ final, rest.foldlM (indexStep entries) index = .ok final := by
  induction rest generalizing done index with
  | nil => exact ⟨index, rfl⟩
  | cons position rest ih =>
      have fresh : ∀ other ∈ done, (entries.get other).id.text ≠ (entries.get position).id.text := by
        intro other member same
        rw [List.map_append, List.nodup_append] at distinct
        exact distinct.2.2 _ (List.mem_map_of_mem member) _ (List.mem_map_of_mem List.mem_cons_self) same
      obtain ⟨next, stepped⟩ := index_step_ok entries done index position indexes fresh
      have before := index_step_indexes entries done index next position indexes stepped
      obtain ⟨final, folded⟩ := ih (done ++ [position]) next before (by simpa using distinct)
      exact ⟨final, by rw [List.foldlM_cons, stepped]; exact folded⟩

theorem of_entries_cases {entries : List SampleEntry} {rule : ArtifactRule} {registry : Registry}
    (built : ofEntries entries rule = .ok registry) :
    ∃ nonempty index, rule.fault? = none ∧ indexOf entries = .ok index ∧ registry = ⟨entries, rule, index, nonempty⟩ := by
  unfold ofEntries at built
  split at built
  · rename_i nonempty
    cases fault : rule.fault? with
    | some _ => simp [fault] at built
    | none =>
        cases indexed : indexOf entries with
        | error _ => simp [fault, indexed, Except.map] at built
        | ok index =>
            simp only [fault, indexed, Except.map, Except.ok.injEq] at built
            exact ⟨nonempty, index, rfl, rfl, built.symm⟩
  · cases built

theorem built_iff (entries : List SampleEntry) (rule : ArtifactRule) :
    (∃ registry, ofEntries entries rule = .ok registry) ↔
      entries ≠ [] ∧ rule.fault? = none ∧ ∃ index, indexOf entries = .ok index := by
  constructor
  · rintro ⟨registry, built⟩
    obtain ⟨nonempty, index, faultless, indexed, _⟩ := of_entries_cases built
    exact ⟨nonempty, faultless, index, indexed⟩
  · rintro ⟨nonempty, faultless, index, indexed⟩
    refine ⟨⟨entries, rule, index, nonempty⟩, ?_⟩
    rw [ofEntries, dif_pos nonempty, faultless]
    dsimp only
    rw [indexed]
    rfl

theorem index_of_ok (entries : List SampleEntry) (distinct : (entries.map fun entry => entry.id.text).Nodup) :
    ∃ index, indexOf entries = .ok index := by
  have initial : Indexes entries [] ∅ := by
    intro id position
    simp
  have positions : (List.finRange entries.length).map (fun position => (entries.get position).id.text) =
      entries.map fun entry => entry.id.text := by
    conv => rhs; rw [← List.map_get_finRange entries]
    rw [List.map_map]
    rfl
  exact index_fold_ok entries (List.finRange entries.length) [] ∅ initial
    (by simpa only [List.nil_append, positions] using distinct)

theorem of_entries_ok (entries : List SampleEntry) (rule : ArtifactRule) (nonempty : entries ≠ [])
    (faultless : rule.fault? = none) (distinct : (entries.map fun entry => entry.id.text).Nodup) :
    ∃ registry, ofEntries entries rule = .ok registry :=
  (built_iff entries rule).mpr ⟨nonempty, faultless, index_of_ok entries distinct⟩

theorem builtin_ok : ∃ registry, ofEntries Catalog.builtinSamples {} = .ok registry :=
  of_entries_ok Catalog.builtinSamples {} (by decide) (by decide) (by decide)

section Built

variable {entries : List SampleEntry} {rule : ArtifactRule} {registry : Registry}

theorem of_entries_rule (built : ofEntries entries rule = .ok registry) :
    registry.entries = entries ∧ registry.rule = rule ∧ registry.rule.fault? = none := by
  obtain ⟨nonempty, index, faultless, indexed, rfl⟩ := of_entries_cases built
  exact ⟨rfl, rfl, faultless⟩

theorem position_iff (built : ofEntries entries rule = .ok registry) (id : String)
    (position : Fin registry.entries.length) :
    registry.position? id = some position ↔ (registry.entryAt position).id.text = id := by
  obtain ⟨nonempty, index, faultless, indexed, rfl⟩ := of_entries_cases built
  have indexes := index_of_indexes entries index indexed id position
  rw [and_iff_right (List.mem_finRange position)] at indexes
  exact indexes

theorem position_of_entry (built : ofEntries entries rule = .ok registry) (position : Fin registry.entries.length) :
    registry.position? (registry.entryAt position).id.text = some position :=
  (position_iff built _ position).mpr rfl

theorem entry_id_injective (built : ofEntries entries rule = .ok registry) (a b : Fin registry.entries.length)
    (same : (registry.entryAt a).id = (registry.entryAt b).id) : a = b := by
  have found := position_of_entry built a
  rw [same, position_of_entry built b] at found
  exact (Option.some.inj found).symm

theorem entry_of_id (built : ofEntries entries rule = .ok registry) (a b : SampleEntry) (left : a ∈ registry.entries)
    (right : b ∈ registry.entries) (same : a.id = b.id) : a = b := by
  obtain ⟨i, rfl⟩ := List.get_of_mem left
  obtain ⟨j, rfl⟩ := List.get_of_mem right
  rw [entry_id_injective built i j same]

theorem ids_distinct (built : ofEntries entries rule = .ok registry) :
    (registry.entries.map fun entry => entry.id).Nodup := by
  rw [← List.ofFn_get registry.entries, List.map_ofFn, List.nodup_ofFn]
  exact fun a b same => entry_id_injective built a b same

theorem position_none_iff (built : ofEntries entries rule = .ok registry) (id : String) :
    registry.position? id = none ↔ id ∉ registry.entries.map fun entry => entry.id.text := by
  constructor
  · intro absent member
    obtain ⟨entry, inside, holds⟩ := List.mem_map.mp member
    obtain ⟨position, same⟩ := List.mem_iff_get.mp inside
    have found := (position_iff built id position).mpr (by rw [entryAt, same]; exact holds)
    rw [absent] at found
    cases found
  · intro unknown
    cases found : registry.position? id with
    | none => rfl
    | some position =>
        have holds := (position_iff built id position).mp found
        exact absurd (List.mem_map.mpr ⟨registry.entryAt position, List.get_mem _ _, holds⟩) unknown

theorem scan_eq_find (built : ofEntries entries rule = .ok registry) (id : String) :
    registry.entries.find? (fun entry => entry.id.text = id) = registry.find? id := by
  cases scanned : registry.entries.find? (fun entry => entry.id.text = id) with
  | none =>
      have unknown : id ∉ registry.entries.map fun entry => entry.id.text := by
        intro member
        obtain ⟨entry, inside, holds⟩ := List.mem_map.mp member
        simpa [holds] using List.find?_eq_none.mp scanned entry inside
      rw [find?, (position_none_iff built id).mpr unknown]
      rfl
  | some entry =>
      have holds : entry.id.text = id := by simpa using List.find?_some scanned
      obtain ⟨position, same⟩ := List.mem_iff_get.mp (List.mem_of_find?_eq_some scanned)
      have found := (position_iff built id position).mpr (by rw [entryAt, same]; exact holds)
      rw [find?, found, Option.map_some, entryAt, same]

end Built

end Showcase.Registry
