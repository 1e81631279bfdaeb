import Mathlib.Data.List.Nodup
import Showcase.Toml.Document

set_option autoImplicit false

namespace Showcase.Toml

def Distinct (members : Members) : Prop := (members.map Prod.fst).Nodup

theorem lookup_absent (key : String) (members : Members) (absent : members.lookup key = none) :
    key ∉ members.map Prod.fst := by
  intro member
  obtain ⟨⟨name, value⟩, inside, rfl⟩ := List.mem_map.mp member
  have different := List.lookup_eq_none_iff.mp absent (name, value) inside
  simp at different

theorem append_distinct (key : String) (value : Value) (members : Members) (distinct : Distinct members)
    (fresh : key ∉ members.map Prod.fst) : Distinct (members ++ [(key, value)]) := by
  rw [Distinct, List.map_append, List.map_singleton]
  exact List.Nodup.append distinct (List.nodup_singleton key) (by simpa using fresh)

theorem replace_distinct (key : String) (value : Value) (members : Members) (distinct : Distinct members) :
    Distinct (replace key value members) := by
  have keys : (replace key value members).map Prod.fst = members.map Prod.fst := by
    rw [replace, List.map_map]
    apply List.map_congr_left
    intro member _
    by_cases same : member.1 = key <;> simp [same]
  rwa [Distinct, keys]

theorem insert_distinct (key : String) (value : Value) (path : List String) (members after : Members)
    (inserted : insert key value path members = some after) (distinct : Distinct members) : Distinct after := by
  cases path with
  | nil =>
      rw [insert, insertNew] at inserted
      split at inserted
      · rename_i free
        cases inserted
        exact append_distinct key value members distinct (lookup_absent key members (Option.isNone_iff_eq_none.mp free))
      · cases inserted
  | cons step path =>
      rw [insert] at inserted
      split at inserted
      · rename_i free
        obtain ⟨inner, _, rfl⟩ := Option.map_eq_some_iff.mp inserted
        exact append_distinct step _ members distinct (lookup_absent step members free)
      · split at inserted
        · obtain ⟨inner, _, rfl⟩ := Option.map_eq_some_iff.mp inserted
          exact replace_distinct step _ members distinct
        · cases inserted
      · split at inserted
        · obtain ⟨inner, _, rfl⟩ := Option.map_eq_some_iff.mp inserted
          exact replace_distinct step _ members distinct
        · cases inserted
      · cases inserted

theorem insert_all_distinct (pairs : List Pair) (members after : Members) (inserted : insertAll pairs members = some after)
    (distinct : Distinct members) : Distinct after := by
  induction pairs generalizing members with
  | nil =>
      cases inserted
      exact distinct
  | cons pair others ih =>
      rw [insertAll, List.foldlM_cons] at inserted
      obtain ⟨next, first, rest⟩ := Option.bind_eq_some_iff.mp inserted
      exact ih next rest (insert_distinct pair.key pair.value pair.path members next first distinct)

theorem open_table_cases (key : String) (pairs : List Pair) (members after : Members)
    (opened : openTable key pairs members = some after) :
    ∃ content, after = members.filter (fun member => member.1 ≠ key) ++ [(key, .table .header content)] := by
  -- The key is taken out of the table before it is added, so an implied table leaves its place.
  have filled : ∀ inner, (insertAll pairs inner).bind (fun content =>
      some (members.filter (fun member => member.1 ≠ key) ++ [(key, .table .header content)])) = some after →
      ∃ content, after = members.filter (fun member => member.1 ≠ key) ++ [(key, .table .header content)] := by
    intro inner held
    obtain ⟨content, _, same⟩ := Option.bind_eq_some_iff.mp held
    exact ⟨content, (Option.some.inj same).symm⟩
  unfold openTable at opened
  dsimp only at opened
  split at opened
  · exact filled [] opened
  · rename_i inner _
    exact filled inner opened
  · cases opened

theorem open_table_distinct (key : String) (pairs : List Pair) (members after : Members)
    (opened : openTable key pairs members = some after) (distinct : Distinct members) : Distinct after := by
  obtain ⟨content, rfl⟩ := open_table_cases key pairs members after opened
  apply append_distinct
  · exact (List.filter_sublist.map Prod.fst).nodup distinct
  · simp

theorem open_element_distinct (key : String) (pairs : List Pair) (members after : Members)
    (opened : openElement key pairs members = some after) (distinct : Distinct members) : Distinct after := by
  obtain ⟨content, _, filled⟩ := Option.bind_eq_some_iff.mp opened
  dsimp only at filled
  split at filled
  · rename_i free
    cases filled
    exact append_distinct key _ members distinct (lookup_absent key members free)
  · cases filled
    exact replace_distinct key _ members distinct
  · cases filled

theorem edit_at_distinct (change : Members → Option Members) (path : List String) (members after : Members)
    (kept : ∀ members after, change members = some after → Distinct members → Distinct after)
    (edited : editAt change path members = some after) (distinct : Distinct members) : Distinct after := by
  cases path with
  | nil => exact kept members after edited distinct
  | cons step path =>
      rw [editAt] at edited
      split at edited
      · rename_i free
        obtain ⟨inner, _, rfl⟩ := Option.map_eq_some_iff.mp edited
        exact append_distinct step _ members distinct (lookup_absent step members free)
      · split at edited
        · cases edited
        · obtain ⟨inner, _, rfl⟩ := Option.map_eq_some_iff.mp edited
          exact replace_distinct step _ members distinct
      · split at edited
        · obtain ⟨inner, _, rfl⟩ := Option.map_eq_some_iff.mp edited
          exact replace_distinct step _ members distinct
        · cases edited
      · cases edited

theorem block_distinct (block : Block) (members after : Members) (applied : block.apply members = some after)
    (distinct : Distinct members) : Distinct after := by
  apply edit_at_distinct _ block.path members after _ applied distinct
  cases block.opening with
  | table => exact open_table_distinct block.key block.pairs
  | element => exact open_element_distinct block.key block.pairs

theorem blocks_distinct (blocks : List Block) (members after : Members)
    (applied : blocks.foldlM (fun members block => block.apply members) members = some after)
    (distinct : Distinct members) : Distinct after := by
  induction blocks generalizing members with
  | nil =>
      cases applied
      exact distinct
  | cons block others ih =>
      rw [List.foldlM_cons] at applied
      obtain ⟨next, first, rest⟩ := Option.bind_eq_some_iff.mp applied
      exact ih next rest (block_distinct block members next first distinct)

theorem parse_distinct (document : String) (members : Members) (parsed : parse? document = some members) :
    Distinct members := by
  obtain ⟨lines, _, assembled⟩ := Option.bind_eq_some_iff.mp parsed
  obtain ⟨first, inserted, applied⟩ := Option.bind_eq_some_iff.mp assembled
  exact blocks_distinct _ first members applied (insert_all_distinct _ [] first inserted List.nodup_nil)

end Showcase.Toml
