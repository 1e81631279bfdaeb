import Showcase.Catalog.Read
import Showcase.Proofs.Artifact
import Showcase.Proofs.Registry

set_option autoImplicit false

namespace Showcase.Registry

inductive Obtained (registry : Registry) : Prop where
  | entries (entries : List SampleEntry) (rule : ArtifactRule) (built : ofEntries entries rule = .ok registry)
  | builtin (built : Registry.builtin = .ok registry)
  | document (text : String) (built : ofDocument text = .ok registry)

theorem of_document_ok (text : String) (registry : Registry) (built : ofDocument text = .ok registry) :
    ∃ catalog, Catalog.read text = .ok catalog ∧ ofEntries catalog.samples catalog.rule = .ok registry := by
  unfold ofDocument at built
  cases read : Catalog.read text with
  | error fault =>
      rw [read] at built
      cases built
  | ok catalog =>
      rw [read] at built
      exact ⟨catalog, rfl, built⟩

theorem obtained_built (registry : Registry) (obtained : Obtained registry) :
    ∃ entries rule, ofEntries entries rule = .ok registry := by
  cases obtained with
  | entries entries rule built => exact ⟨entries, rule, built⟩
  | builtin built => exact ⟨Catalog.builtinSamples, {}, built⟩
  | document text built =>
      obtain ⟨catalog, _, built⟩ := of_document_ok text registry built
      exact ⟨catalog.samples, catalog.rule, built⟩

structure Sound (registry : Registry) : Prop where
  nonempty : registry.entries ≠ []
  distinct : (registry.entries.map fun entry => entry.id).Nodup
  ids : ∀ entry ∈ registry.entries, entry.id.text ≠ "" ∧
    ∀ c ∈ entry.id.text.toList, c.isAlphanum = true ∨ c = '-' ∨ c = '_'
  ruled : registry.rule.fault? = none

structure Scans (registry : Registry) (id : String) : Prop where
  position : ∀ i : Nat, (registry.position? id).map Fin.val = some i ↔
    ∃ entry, registry.entries[i]? = some entry ∧ entry.id.text = id
  bounded : ∀ i : Nat, (registry.position? id).map Fin.val = some i → i < registry.size
  unique : ∀ (i j : Nat) (a b : SampleEntry), registry.entries[i]? = some a → registry.entries[j]? = some b →
    a.id.text = id → b.id.text = id → i = j
  absent : registry.position? id = none ↔ ∀ entry ∈ registry.entries, entry.id.text ≠ id
  found : registry.find? id = (registry.position? id).bind fun position => registry.entryAt? position
  scanned : registry.find? id = registry.entries.find? fun entry => entry.id.text = id
  contained : registry.contains id = (registry.find? id).isSome
  got : ∀ entry, registry.get id = .ok entry ↔ registry.find? id = some entry
  refused : registry.contains id = false → registry.get id = .error (.unknownSample id)

theorem get_ok_iff (registry : Registry) (id : String) (entry : SampleEntry) :
    registry.get id = .ok entry ↔ registry.find? id = some entry := by
  unfold get
  cases registry.find? id <;> simp

theorem contains_eq_position (registry : Registry) (id : String) :
    registry.contains id = (registry.position? id).isSome :=
  Std.HashMap.contains_eq_isSome_getElem?

section Built

variable {entries : List SampleEntry} {rule : ArtifactRule} {registry : Registry}

theorem built_sound (built : ofEntries entries rule = .ok registry) : Sound registry := by
  refine ⟨registry.nonempty, ids_distinct built, ?_, (of_entries_rule built).2.2⟩
  intro entry _
  constructor
  · intro empty
    exact entry.id.nonempty (String.toList_eq_nil_iff.mpr empty)
  · intro c member
    simpa [isIdChar, or_assoc] using entry.id.members c member

theorem position_val_iff (built : ofEntries entries rule = .ok registry) (id : String) (i : Nat) :
    (registry.position? id).map Fin.val = some i ↔
      ∃ entry, registry.entries[i]? = some entry ∧ entry.id.text = id := by
  constructor
  · intro found
    obtain ⟨position, here, rfl⟩ := Option.map_eq_some_iff.mp found
    exact ⟨registry.entryAt position, by simp [entryAt], (position_iff built id position).mp here⟩
  · intro held
    obtain ⟨entry, here, named⟩ := held
    obtain ⟨bound, same⟩ := List.getElem?_eq_some_iff.mp here
    have found : registry.position? id = some ⟨i, bound⟩ := by
      rw [position_iff built, entryAt, List.get_eq_getElem, same]
      exact named
    rw [found]
    rfl

theorem find_entry_at (registry : Registry) (id : String) :
    registry.find? id = (registry.position? id).bind fun position => registry.entryAt? position := by
  rw [find?]
  cases registry.position? id with
  | none => rfl
  | some position => simp [entryAt, entryAt?]

theorem built_scans (built : ofEntries entries rule = .ok registry) (id : String) : Scans registry id := by
  have position := position_val_iff built id
  have contained : registry.contains id = (registry.find? id).isSome := by
    rw [contains_eq_position, find?, Option.isSome_map]
  refine ⟨position, ?_, ?_, ?_, find_entry_at registry id, (scan_eq_find built id).symm, contained,
    get_ok_iff registry id, ?_⟩
  · intro i found
    obtain ⟨place, _, rfl⟩ := Option.map_eq_some_iff.mp found
    exact place.isLt
  · intro i j a b first second here there
    have left := (position i).mpr ⟨a, first, here⟩
    have right := (position j).mpr ⟨b, second, there⟩
    exact Option.some.inj (left.symm.trans right)
  · rw [position_none_iff built]
    simp
  · intro missing
    rw [contained, Option.isSome_eq_false_iff, Option.isNone_iff_eq_none] at missing
    rw [get, missing]

end Built

theorem lookups_scan (registry : Registry) (obtained : Obtained registry) :
    Sound registry ∧ (∀ id, Scans registry id) ∧ registry.entryAt? 0 = some registry.first ∧
      registry.summaries.map (fun summary => (summary.id, summary.title)) =
        registry.entries.map fun entry => (entry.id, entry.title) := by
  obtain ⟨entries, rule, built⟩ := obtained_built registry obtained
  refine ⟨built_sound built, built_scans built, ?_, ?_⟩
  · simp [entryAt?, first, entryAt, firstPosition]
  · simp [summaries, SampleEntry.summary]

def leaflet : String :=
  "[artifacts]\ndirectory = \"/ir/\"\n" ++
  "[[samples]]\nid = \"front\"\ntitle = \"Front\"\nsource_text = \"\"\nexpected_output = \"1\"\n" ++
  "[[samples]]\nid = \"back\"\ntitle = \"Back\"\nsource_text = \"\"\nexpected_output = \"2\"\n"

def leafletSamples : List SampleEntry :=
  [⟨⟨"front", by decide⟩, "Front", "", "1"⟩, ⟨⟨"back", by decide⟩, "Back", "", "2"⟩]

theorem leaflet_read : (Catalog.read leaflet).toOption.map (fun catalog => (catalog.rule, catalog.samples)) =
    some (⟨"/ir/", "ll"⟩, leafletSamples) := by
  decide +kernel

theorem leaflet_ok : ∃ registry, ofDocument leaflet = .ok registry ∧ registry.entries = leafletSamples := by
  have held := leaflet_read
  cases read : Catalog.read leaflet with
  | error fault =>
      rw [read] at held
      cases held
  | ok catalog =>
      rw [read] at held
      obtain ⟨ruled, listed⟩ := Prod.mk.inj (Option.some.inj held)
      obtain ⟨registry, built⟩ := of_entries_ok leafletSamples ⟨"/ir/", "ll"⟩ (by decide) (by decide) (by decide)
      refine ⟨registry, ?_, (of_entries_rule built).1⟩
      rw [ofDocument, read]
      dsimp only
      rw [ruled, listed, built]

theorem lookups_scan_leaflet : ∃ registry, ofDocument leaflet = .ok registry ∧
    (registry.position? "back").map Fin.val = some 1 ∧ registry.get "Back" = .error (.unknownSample "Back") ∧
    registry.entryAt? 0 = some registry.first := by
  obtain ⟨registry, read, listed⟩ := leaflet_ok
  obtain ⟨_, scans, first, _⟩ := lookups_scan registry (.document leaflet read)
  have absent : registry.position? "Back" = none := by
    rw [(scans "Back").absent, listed]
    decide
  refine ⟨registry, read, ?_, (scans "Back").refused ?_, first⟩
  · rw [(scans "back").position, listed]
    exact ⟨⟨⟨"back", by decide⟩, "Back", "", "2"⟩, rfl, rfl⟩
  · rw [contains_eq_position, absent]
    rfl

end Showcase.Registry
