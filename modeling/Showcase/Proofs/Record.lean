import Mathlib.Data.List.Nodup
import Showcase.Record.Layouts

set_option autoImplicit false

namespace Showcase.Record

abbrev Assignment (fields : List Field) : Type := (slot : Slot fields) × slot.kind.Value

namespace Slot

theorem name_mem {fields : List Field} (slot : Slot fields) : slot.name ∈ fields.map Field.name := by
  induction slot with
  | here => exact List.mem_cons_self
  | there slot ih => exact List.mem_cons_of_mem _ ih

theorem find_name {fields : List Field} (distinct : (fields.map Field.name).Nodup) (slot : Slot fields) :
    find? slot.name fields = some slot := by
  induction slot with
  | here => exact if_pos rfl
  | @there field rest slot ih =>
      obtain ⟨fresh, others⟩ := List.nodup_cons.mp distinct
      have different : field.name ≠ slot.name := fun same => fresh (same ▸ slot.name_mem)
      change (if field.name = slot.name then some here else (find? slot.name rest).map there) = _
      rw [if_neg different, ih others]
      rfl

theorem name_injective {fields : List Field} (distinct : (fields.map Field.name).Nodup) (slot other : Slot fields)
    (same : slot.name = other.name) : slot = other := by
  have found := slot.find_name distinct
  rw [same, other.find_name distinct] at found
  exact (Option.some.inj found).symm

end Slot

namespace Draft

def assign {fields : List Field} (draft : Draft fields) (assignments : List (Assignment fields)) : Draft fields :=
  assignments.foldl (fun draft assignment => draft.set assignment.1 assignment.2) draft

theorem get_set_other {fields : List Field} (draft : Draft fields) (slot other : Slot fields)
    (value : other.kind.Value) (different : slot ≠ other) : (draft.set other value).get? slot = draft.get? slot := by
  induction slot with
  | here =>
      cases other with
      | here => exact absurd rfl different
      | there other => rfl
  | there slot ih =>
      cases other with
      | here => rfl
      | there other => exact ih draft.2 other value (fun same => different (congrArg Slot.there same))

theorem get_empty {fields : List Field} (slot : Slot fields) : (empty fields).get? slot = none := by
  induction slot with
  | here => rfl
  | there slot ih => exact ih

end Draft

namespace Row

def assignments : (fields : List Field) → Row fields → List (Assignment fields)
  | [], _ => []
  | _ :: rest, (value, others) =>
      ⟨.here, value⟩ :: (assignments rest others).map fun assignment => ⟨.there assignment.1, assignment.2⟩

def full : (fields : List Field) → Row fields → Draft fields
  | [], _ => ()
  | _ :: rest, (value, others) => (some value, full rest others)

theorem assignments_length (fields : List Field) (row : Row fields) :
    (assignments fields row).length = fields.length := by
  induction fields with
  | nil => rfl
  | cons field rest ih =>
      obtain ⟨value, others⟩ := row
      rw [assignments, List.length_cons, List.length_map, ih others, List.length_cons]

theorem assignments_distinct (fields : List Field) (row : Row fields) :
    ((assignments fields row).map Sigma.fst).Nodup := by
  induction fields with
  | nil => exact List.nodup_nil
  | cons field rest ih =>
      obtain ⟨value, others⟩ := row
      rw [assignments, List.map_cons, List.map_map, List.nodup_cons]
      constructor
      · simp
      · have behind := (ih others).map (f := @Slot.there field rest) (fun _ _ same => Slot.there.inj same)
        rwa [List.map_map] at behind

theorem assign_behind {field : Field} {rest : List Field} (first : Option field.kind.Value) (draft : Draft rest)
    (assignments : List (Assignment rest)) :
    @Draft.assign (field :: rest) (first, draft)
        (assignments.map fun assignment => ⟨.there assignment.1, assignment.2⟩) =
      (first, draft.assign assignments) := by
  induction assignments generalizing draft with
  | nil => rfl
  | cons assignment others ih => exact ih (draft.set assignment.1 assignment.2)

theorem assign_full (fields : List Field) (row : Row fields) :
    (Draft.empty fields).assign (assignments fields row) = full fields row := by
  induction fields with
  | nil => rfl
  | cons field rest ih =>
      obtain ⟨value, others⟩ := row
      have first := assign_behind (some value) (Draft.empty rest) (assignments rest others)
      rw [ih others] at first
      exact first

theorem finish_full (fields : List Field) (defaults : Option (Row fields)) (row : Row fields) :
    (full fields row).finish fields defaults = .ok row := by
  induction fields with
  | nil => rfl
  | cons field rest ih =>
      obtain ⟨value, others⟩ := row
      have tail := ih (defaults.map Prod.snd) others
      simp only [full, Draft.finish, Option.some_or, tail]
      rfl

end Row

/-- Fields can be told apart by their names, and a row loses nothing of its value. -/
structure Layout.Faithful {α : Type} (layout : Layout α) : Prop where
  distinct : (layout.fields.map Field.name).Nodup
  restored : ∀ a, layout.ofRow (layout.toRow a) = a

theorem Layout.finish_assigned {α : Type} (layout : Layout α) (faithful : layout.Faithful) (a : α) :
    layout.finish ((Draft.empty layout.fields).assign (Row.assignments layout.fields (layout.toRow a))) = .ok a := by
  rw [Layout.finish, Row.assign_full, Row.finish_full]
  exact congrArg Except.ok (faithful.restored a)

end Record

open Record (Layout)

theorem SampleEntry.layout_faithful : SampleEntry.layout.Faithful := ⟨by decide, fun _ => rfl⟩

theorem SampleSummary.layout_faithful : SampleSummary.layout.Faithful := ⟨by decide, fun _ => rfl⟩

theorem ArtifactRule.layout_faithful : ArtifactRule.layout.Faithful := ⟨by decide, fun _ => rfl⟩

theorem ApiError.layout_faithful : ApiError.layout.Faithful := ⟨by decide, fun _ => rfl⟩

theorem View.layout_faithful : View.layout.Faithful := ⟨by decide, fun _ => rfl⟩

theorem NavItem.layout_faithful : NavItem.layout.Faithful := ⟨by decide, fun _ => rfl⟩

end Showcase
