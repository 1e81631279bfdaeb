import Mathlib.Data.List.FinRange
import Showcase.Proofs.Lookup
import Showcase.Proofs.Table

set_option autoImplicit false

namespace Showcase

namespace Registry

def Repeats (entries : List SampleEntry) (position : Nat) : Prop :=
  ∃ earlier < position, ∃ first second, entries[earlier]? = some first ∧ entries[position]? = some second ∧
    first.id = second.id

theorem repeats_iff (entries : List SampleEntry) (position : Fin entries.length) :
    Repeats entries position ↔ ∃ earlier < position, (entries.get earlier).id = (entries.get position).id := by
  constructor
  · rintro ⟨earlier, less, first, second, held, here, same⟩
    obtain ⟨bound, rfl⟩ := List.getElem?_eq_some_iff.mp held
    obtain ⟨_, rfl⟩ := List.getElem?_eq_some_iff.mp here
    exact ⟨⟨earlier, bound⟩, less, same⟩
  · rintro ⟨earlier, less, same⟩
    exact ⟨earlier, less, _, _, List.getElem?_eq_getElem earlier.isLt, List.getElem?_eq_getElem position.isLt, same⟩

theorem repeats_bounded (entries : List SampleEntry) (position : Nat) (repeated : Repeats entries position) :
    position < entries.length := by
  obtain ⟨_, _, _, _, _, here, _⟩ := repeated
  exact (List.getElem?_eq_some_iff.mp here).1

theorem position_of_id (entries : List SampleEntry) (a b : Fin entries.length) (left : ¬ Repeats entries a)
    (right : ¬ Repeats entries b) (same : (entries.get a).id = (entries.get b).id) : a = b := by
  rcases lt_trichotomy a b with less | equal | less
  · exact absurd ((repeats_iff entries b).mpr ⟨a, less, same⟩) right
  · exact equal
  · exact absurd ((repeats_iff entries a).mpr ⟨b, less, same.symm⟩) left

theorem distinct_iff (entries : List SampleEntry) :
    (entries.map SampleEntry.id).Nodup ↔ ∀ position, ¬ Repeats entries position := by
  rw [← List.ofFn_get entries, List.map_ofFn, List.nodup_ofFn, List.ofFn_get]
  constructor
  · intro injective position repeated
    obtain ⟨earlier, less, same⟩ :=
      (repeats_iff entries ⟨position, repeats_bounded entries position repeated⟩).mp repeated
    exact absurd (injective same) (ne_of_lt less)
  · intro none a b same
    exact position_of_id entries a b (none a) (none b) same

theorem index_step_repeated (entries : List SampleEntry) (done : List (Fin entries.length))
    (index : Std.HashMap String (Fin entries.length)) (position other : Fin entries.length)
    (indexes : Indexes entries done index) (member : other ∈ done)
    (same : (entries.get other).id = (entries.get position).id) :
    indexStep entries index position = .error (.duplicateSampleId (entries.get position).id) := by
  have held := (indexes (entries.get position).id.text other).mpr ⟨member, congrArg SampleId.text same⟩
  have present : index.contains (entries.get position).id.text = true := by
    rw [Std.HashMap.contains_eq_isSome_getElem?, held]
    rfl
  exact if_pos present

theorem range_cut {n : Nat} (before after : List (Fin n)) (position : Fin n)
    (split : List.finRange n = before ++ position :: after) (other : Fin n) : other ∈ before ↔ other < position := by
  have sorted := List.pairwise_lt_finRange n
  rw [split, List.pairwise_append, List.pairwise_cons] at sorted
  obtain ⟨_, ⟨above, _⟩, across⟩ := sorted
  constructor
  · intro member
    exact across other member position List.mem_cons_self
  · intro less
    have listed := List.mem_finRange other
    rw [split, List.mem_append, List.mem_cons] at listed
    rcases listed with member | rfl | later
    · exact member
    · exact absurd less (lt_irrefl _)
    · exact absurd less (lt_asymm (above other later))

theorem index_of_repeated (entries : List SampleEntry) (position : Fin entries.length)
    (repeated : Repeats entries position) (first : ∀ earlier < position, ¬ Repeats entries earlier) :
    indexOf entries = .error (.duplicateSampleId (entries.get position).id) := by
  obtain ⟨before, after, split⟩ := List.append_of_mem (List.mem_finRange position)
  have below := range_cut before after position split
  have distinct : (before.map fun other => (entries.get other).id.text).Nodup := by
    have once : before.Nodup := by
      have all := List.nodup_finRange entries.length
      rw [split] at all
      exact all.of_append_left
    apply once.map_on
    intro a left b right same
    exact position_of_id entries a b (first a ((below a).mp left)) (first b ((below b).mp right))
      (SampleId.text_injective same)
  have initial : Indexes entries [] ∅ := by
    intro id other
    simp
  obtain ⟨index, folded⟩ := index_fold_ok entries before [] ∅ initial distinct
  have indexes := index_fold_indexes entries before [] ∅ index initial folded
  obtain ⟨other, less, same⟩ := (repeats_iff entries position).mp repeated
  have stopped := index_step_repeated entries before index position other indexes ((below other).mpr less) same
  rw [indexOf, split, List.foldlM_append, folded]
  change (position :: after).foldlM (indexStep entries) index = _
  rw [List.foldlM_cons, stopped]
  rfl

def FirstRepeat (entries : List SampleEntry) (id : SampleId) : Prop :=
  ∃ position entry, Repeats entries position ∧ (∀ earlier < position, ¬ Repeats entries earlier) ∧
    entries[position]? = some entry ∧ entry.id = id

theorem first_repeat_exists (entries : List SampleEntry) (repeated : ¬ (entries.map SampleEntry.id).Nodup) :
    ∃ id, FirstRepeat entries id := by
  classical
  rw [distinct_iff, not_forall] at repeated
  simp only [not_not] at repeated
  have here := Nat.find_spec repeated
  exact ⟨_, Nat.find repeated, _, here, fun earlier less => Nat.find_min repeated less,
    List.getElem?_eq_getElem (repeats_bounded entries _ here), rfl⟩

theorem index_of_first_repeat (entries : List SampleEntry) (id : SampleId) (first : FirstRepeat entries id) :
    indexOf entries = .error (.duplicateSampleId id) := by
  obtain ⟨position, entry, repeated, earliest, here, rfl⟩ := first
  obtain ⟨bound, rfl⟩ := List.getElem?_eq_some_iff.mp here
  exact index_of_repeated entries ⟨position, bound⟩ repeated fun earlier less => earliest earlier less

theorem index_of_cases (entries : List SampleEntry) :
    ((entries.map SampleEntry.id).Nodup ∧ ∃ index, indexOf entries = .ok index) ∨
      ¬ (entries.map SampleEntry.id).Nodup ∧
        ∃ id, FirstRepeat entries id ∧ indexOf entries = .error (.duplicateSampleId id) := by
  by_cases distinct : (entries.map SampleEntry.id).Nodup
  · have texts := distinct.map SampleId.text_injective
    rw [List.map_map] at texts
    exact .inl ⟨distinct, index_of_ok entries texts⟩
  · obtain ⟨id, first⟩ := first_repeat_exists entries distinct
    exact .inr ⟨distinct, id, first, index_of_first_repeat entries id first⟩

structure Verdict (entries : List SampleEntry) (rule : ArtifactRule) (result : Except Error Registry) : Prop where
  empty : result = .error .emptyCatalog ↔ entries = []
  ruled : ∀ fault, result = .error (.invalidArtifactRule fault) ↔ entries ≠ [] ∧ rule.fault? = some fault
  repeated : ∀ id, result = .error (.duplicateSampleId id) ↔
    entries ≠ [] ∧ rule.fault? = none ∧ FirstRepeat entries id
  accepted : (∃ registry, result = .ok registry ∧ registry.entries = entries ∧ registry.rule = rule) ↔
    entries ≠ [] ∧ rule.fault? = none ∧ (entries.map SampleEntry.id).Nodup
  complete : result = .error .emptyCatalog ∨ (∃ fault, result = .error (.invalidArtifactRule fault)) ∨
    (∃ id, result = .error (.duplicateSampleId id)) ∨
    ∃ registry, result = .ok registry ∧ registry.entries = entries ∧ registry.rule = rule

theorem of_entries_verdict (entries : List SampleEntry) (rule : ArtifactRule) :
    Verdict entries rule (ofEntries entries rule) := by
  by_cases nonempty : entries ≠ []
  · cases fault : rule.fault? with
    | some cause =>
        have result : ofEntries entries rule = .error (.invalidArtifactRule cause) := by
          rw [ofEntries, dif_pos nonempty, fault]
        rw [result]
        constructor <;> simp [nonempty, fault]
    | none =>
        have indexed : ofEntries entries rule = (indexOf entries).map fun index => ⟨entries, rule, index, nonempty⟩ := by
          rw [ofEntries, dif_pos nonempty, fault]
        rcases index_of_cases entries with ⟨distinct, index, built⟩ | ⟨duplicate, id, first, failed⟩
        · have unrepeated : ∀ id, ¬ FirstRepeat entries id := by
            rintro id ⟨position, _, repeated, _⟩
            exact (distinct_iff entries).mp distinct position repeated
          rw [indexed, built, Except.map]
          constructor <;> simp [nonempty, fault, distinct, unrepeated]
        · have only : ∀ other, FirstRepeat entries other ↔ id = other := by
            intro other
            constructor
            · intro again
              have both := index_of_first_repeat entries other again
              rw [failed] at both
              cases both
              rfl
            · rintro rfl
              exact first
          rw [indexed, failed, Except.map]
          constructor <;> simp [nonempty, fault, duplicate, only]
  · have result : ofEntries entries rule = .error .emptyCatalog := dif_neg nonempty
    rw [result]
    constructor <;> simp [not_not.mp nonempty]

end Registry

namespace Catalog

open Toml (Members Value Distinct)

def member {α : Type} (decode : Value → Except ValueFault α) (absent : α) (key : String) (members : Members) :
    Except ValueFault α :=
  match members.lookup key with
  | none => .ok absent
  | some value => decode value

theorem member_other {α : Type} (decode : Value → Except ValueFault α) (absent : α) (key name : String) (value : Value)
    (members : Members) (different : name ≠ key) :
    member decode absent key ((name, value) :: members) = member decode absent key members := by
  rw [member, List.lookup_cons, beq_false_of_ne different.symm, member]

theorem member_here {α : Type} (decode : Value → Except ValueFault α) (absent : α) (key : String) (value : Value)
    (members : Members) : member decode absent key ((key, value) :: members) = decode value := by
  rw [member, List.lookup_cons, beq_self_eq_true]

theorem member_absent {α : Type} (decode : Value → Except ValueFault α) (absent : α) (key : String) (members : Members)
    (fresh : key ∉ members.map Prod.fst) : member decode absent key members = .ok absent := by
  have missing : members.lookup key = none := by
    rw [List.lookup_eq_none_iff]
    intro entry inside
    rw [bne_iff_ne]
    rintro rfl
    exact fresh (List.mem_map_of_mem inside)
  rw [member, missing]

abbrev decodeRule := Toml.record ArtifactRule.layout

abbrev decodeSamples := Toml.list (Toml.record SampleEntry.layout)

def readMember (catalog : Catalog) (entry : String × Value) : Except ValueFault Catalog :=
  if entry.1 = "artifacts" then (decodeRule entry.2).map fun rule => { catalog with rule }
  else if entry.1 = "samples" then (decodeSamples entry.2).map fun samples => { catalog with samples }
  else .ok catalog

theorem of_members_eq (members : Members) : ofMembers members = members.foldlM readMember {} := rfl

theorem fold_members_iff (members : Members) (distinct : Distinct members) (before after : Catalog) :
    members.foldlM readMember before = .ok after ↔
      member decodeRule before.rule "artifacts" members = .ok after.rule ∧
      member decodeSamples before.samples "samples" members = .ok after.samples := by
  -- By induction on the members, with the catalog so far as the defaults of those that follow.
  induction members generalizing before with
  | nil =>
      obtain ⟨rule, samples⟩ := before
      obtain ⟨finalRule, finalSamples⟩ := after
      simp [member, pure, Except.pure]
  | cons entry members ih =>
      obtain ⟨key, value⟩ := entry
      obtain ⟨fresh, later⟩ := List.nodup_cons.mp distinct
      rw [List.foldlM_cons]
      by_cases ruled : key = "artifacts"
      · subst ruled
        rw [member_here, member_other _ _ _ _ _ _ (by decide), readMember, if_pos rfl]
        cases decodeRule value with
        | error fault => simp [Except.map, bind, Except.bind]
        | ok rule =>
            have rest := ih later { before with rule }
            rw [member_absent _ _ _ _ fresh] at rest
            exact rest
      · by_cases listed : key = "samples"
        · subst listed
          rw [member_here, member_other _ _ _ _ _ _ ruled, readMember, if_neg ruled, if_pos rfl]
          cases decodeSamples value with
          | error fault => simp [Except.map, bind, Except.bind]
          | ok samples =>
              have rest := ih later { before with samples }
              rw [member_absent _ _ "samples" _ fresh] at rest
              exact rest
        · rw [member_other _ _ _ _ _ _ ruled, member_other _ _ _ _ _ _ listed, readMember, if_neg ruled, if_neg listed]
          exact ih later before

def Decodes (document : String) (catalog : Catalog) : Prop :=
  ∃ members, Toml.parse? document = some members ∧
    member decodeRule {} "artifacts" members = .ok catalog.rule ∧
    member decodeSamples [] "samples" members = .ok catalog.samples

theorem read_ok_iff (document : String) (catalog : Catalog) : read document = .ok catalog ↔ Decodes document catalog := by
  cases parsed : Toml.parse? document with
  | none => simp [read, Decodes, parsed]
  | some members =>
      have folded := fold_members_iff members (Toml.parse_distinct document members parsed) {} catalog
      rw [← of_members_eq] at folded
      have decodes : Decodes document catalog ↔ ofMembers members = .ok catalog := by
        simp [Decodes, parsed, folded]
      rw [decodes, read, parsed]
      dsimp only
      cases ofMembers members with
      | error fault => simp [Except.mapError]
      | ok held => simp [Except.mapError]

end Catalog

namespace Registry

theorem catalog_parse_iff (document : String) (fault : DocumentFault) :
    ofDocument document = .error (.catalogParse fault) ↔ Catalog.read document = .error fault := by
  rw [ofDocument]
  cases read : Catalog.read document with
  | error cause => simp
  | ok catalog =>
      have verdict := (of_entries_verdict catalog.samples catalog.rule).complete
      simp only [reduceCtorEq, iff_false]
      rcases verdict with empty | ⟨fault, ruled⟩ | ⟨id, repeated⟩ | ⟨registry, built, _⟩ <;> simp [*]

structure Read (document : String) (result : Except Error Registry) : Prop where
  refused : (∃ fault, result = .error (.catalogParse fault)) ↔ ¬ ∃ catalog, Catalog.Decodes document catalog
  decoded : ∀ catalog, Catalog.Decodes document catalog → result = ofEntries catalog.samples catalog.rule

theorem registry_decided (entries : List SampleEntry) (rule : ArtifactRule) (document : String) :
    Verdict entries rule (ofEntries entries rule) ∧ Read document (ofDocument document) := by
  refine ⟨of_entries_verdict entries rule, ?_, ?_⟩
  · simp only [catalog_parse_iff, ← Catalog.read_ok_iff]
    cases Catalog.read document <;> simp
  · intro catalog decodes
    rw [ofDocument, (Catalog.read_ok_iff document catalog).mpr decodes]

end Registry

end Showcase
