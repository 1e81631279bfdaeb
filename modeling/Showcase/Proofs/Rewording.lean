import Mathlib.Data.List.Perm.Basic
import Showcase.Proofs.Record

set_option autoImplicit false

namespace Showcase

theorem to_option_bind {ε α β : Type} (x : Except ε α) (f : α → Except ε β) :
    (x.bind f).toOption = x.toOption.bind fun a => (f a).toOption := by
  cases x <;> rfl

theorem to_option_some {ε α : Type} {x : Except ε α} {a : α} (held : x.toOption = some a) : x = .ok a := by
  cases x with
  | error fault => cases held
  | ok b =>
      cases held
      rfl

namespace Record

variable {β : Type}

/-- One rewriting step after the other: the keys in another order, or one key more or less that is none of the names. -/
inductive Rewritten (names : List String) : List (String × β) → List (String × β) → Prop where
  | reordered (before after : List (String × β)) (order : before.Perm after) : Rewritten names before after
  | added (key : String) (value : β) (entries : List (String × β)) (unknown : key ∉ names) :
      Rewritten names entries ((key, value) :: entries)
  | removed (key : String) (value : β) (entries : List (String × β)) (unknown : key ∉ names) :
      Rewritten names ((key, value) :: entries) entries
  | trans (before between after : List (String × β)) (first : Rewritten names before between)
      (second : Rewritten names between after) : Rewritten names before after

def known (names : List String) (entries : List (String × β)) : List (String × β) :=
  entries.filter fun entry => entry.1 ∈ names

/-- None of the names is a key twice; other keys may be. -/
def Unrepeated (names : List String) (entries : List (String × β)) : Prop :=
  ((known names entries).map Prod.fst).Nodup

instance (names : List String) (entries : List (String × β)) : Decidable (Unrepeated names entries) :=
  inferInstanceAs (Decidable (List.Nodup _))

theorem known_cons_unknown (names : List String) (key : String) (value : β) (entries : List (String × β))
    (unknown : key ∉ names) : known names ((key, value) :: entries) = known names entries :=
  List.filter_cons_of_neg (by simpa using unknown)

theorem known_cons (names : List String) (key : String) (value : β) (entries : List (String × β))
    (named : key ∈ names) : known names ((key, value) :: entries) = (key, value) :: known names entries :=
  List.filter_cons_of_pos (by simpa using named)

theorem Rewritten.known_perm {names : List String} {before after : List (String × β)}
    (rewritten : Rewritten names before after) : (known names before).Perm (known names after) := by
  induction rewritten with
  | reordered before after order => exact order.filter _
  | added key value entries unknown => rw [known_cons_unknown names key value entries unknown]
  | removed key value entries unknown => rw [known_cons_unknown names key value entries unknown]
  | trans before between after _ _ first second => exact first.trans second

theorem Rewritten.symm {names : List String} {before after : List (String × β)}
    (rewritten : Rewritten names before after) : Rewritten names after before := by
  induction rewritten with
  | reordered before after order => exact .reordered after before order.symm
  | added key value entries unknown => exact .removed key value entries unknown
  | removed key value entries unknown => exact .added key value entries unknown
  | trans before between after _ _ first second => exact .trans after between before second first

theorem Rewritten.unrepeated {names : List String} {before after : List (String × β)}
    (rewritten : Rewritten names before after) (once : Unrepeated names before) : Unrepeated names after :=
  (rewritten.known_perm.map Prod.fst).nodup_iff.mp once

theorem unrepeated_of_distinct (names : List String) (entries : List (String × β))
    (distinct : (entries.map Prod.fst).Nodup) : Unrepeated names entries :=
  (List.filter_sublist.map Prod.fst).nodup distinct

namespace Slot

theorem find_some {fields : List Field} {key : String} {slot : Slot fields} (found : find? key fields = some slot) :
    slot.name = key := by
  induction fields with
  | nil => cases found
  | cons field rest ih =>
      rw [find?] at found
      split at found
      · rename_i same
        cases found
        exact same
      · obtain ⟨inner, held, rfl⟩ := Option.map_eq_some_iff.mp found
        exact ih held

theorem find_none_iff (key : String) (fields : List Field) :
    find? key fields = none ↔ key ∉ fields.map Field.name := by
  induction fields with
  | nil => simp [find?]
  | cons field rest ih =>
      rw [find?, List.map_cons, List.mem_cons, not_or, ← ih]
      by_cases same : field.name = key
      · simp [same]
      · simp [same, Ne.symm same]

end Slot

namespace Draft

theorem set_comm {fields : List Field} (draft : Draft fields) (slot other : Slot fields) (value : slot.kind.Value)
    (second : other.kind.Value) (different : slot ≠ other) :
    (draft.set slot value).set other second = (draft.set other second).set slot value := by
  induction slot with
  | here =>
      cases other with
      | here => exact absurd rfl different
      | there other => rfl
  | there slot ih =>
      cases other with
      | here => rfl
      | there other =>
          have behind := ih draft.2 other value second (fun same => different (congrArg Slot.there same))
          exact congrArg (Prod.mk draft.1) behind

theorem assign_perm {fields : List Field} (draft : Draft fields) (assignments others : List (Assignment fields))
    (order : assignments.Perm others) (separate : (assignments.map Sigma.fst).Nodup) :
    draft.assign assignments = draft.assign others := by
  apply order.foldl_eq'
  intro first inside second within draft
  by_cases same : first.1 = second.1
  · rw [List.inj_on_of_nodup_map separate inside within same]
  · exact set_comm draft first.1 second.1 first.2 second.2 same

end Draft

section Decoding

variable (decode : (kind : Kind) → β → Option kind.Value) (fields : List Field)

def assignments? : List (String × β) → Option (List (Assignment fields))
  | [] => some []
  | (key, value) :: rest =>
      match Slot.find? key fields with
      | none => assignments? rest
      | some slot => (decode slot.kind value).bind fun value => (assignments? rest).map (⟨slot, value⟩ :: ·)

theorem assignments_unknown (key : String) (value : β) (rest : List (String × β))
    (unknown : Slot.find? key fields = none) :
    assignments? decode fields ((key, value) :: rest) = assignments? decode fields rest := by
  rw [assignments?, unknown]

theorem assignments_field (key : String) (value : β) (rest : List (String × β)) (slot : Slot fields)
    (found : Slot.find? key fields = some slot) :
    assignments? decode fields ((key, value) :: rest) =
      (decode slot.kind value).bind fun value => (assignments? decode fields rest).map (⟨slot, value⟩ :: ·) := by
  rw [assignments?, found]

theorem assignments_known (entries : List (String × β)) :
    assignments? decode fields entries = assignments? decode fields (known (fields.map Field.name) entries) := by
  induction entries with
  | nil => rfl
  | cons entry rest ih =>
      obtain ⟨key, value⟩ := entry
      cases found : Slot.find? key fields with
      | none =>
          have unknown := (Slot.find_none_iff key fields).mp found
          rw [assignments_unknown decode fields key value rest found, known_cons_unknown _ key value rest unknown, ih]
      | some slot =>
          have named : key ∈ fields.map Field.name := Slot.find_some found ▸ slot.name_mem
          rw [known_cons _ key value rest named, assignments_field decode fields key value _ slot found,
            assignments_field decode fields key value _ slot found, ih]

theorem assignments_names (entries : List (String × β)) (assignments : List (Assignment fields))
    (made : assignments? decode fields entries = some assignments) :
    assignments.map (fun assignment => assignment.1.name) = (known (fields.map Field.name) entries).map Prod.fst := by
  induction entries generalizing assignments with
  | nil =>
      cases made
      rfl
  | cons entry rest ih =>
      obtain ⟨key, value⟩ := entry
      cases found : Slot.find? key fields with
      | none =>
          rw [assignments_unknown decode fields key value rest found] at made
          rw [known_cons_unknown _ key value rest ((Slot.find_none_iff key fields).mp found), ih assignments made]
      | some slot =>
          have name := Slot.find_some found
          rw [assignments_field decode fields key value rest slot found] at made
          obtain ⟨read, _, behind⟩ := Option.bind_eq_some_iff.mp made
          obtain ⟨others, rested, rfl⟩ := Option.map_eq_some_iff.mp behind
          rw [known_cons _ key value rest (name ▸ slot.name_mem), List.map_cons, List.map_cons, ih others rested, name]

theorem assignments_separate (entries : List (String × β)) (assignments : List (Assignment fields))
    (made : assignments? decode fields entries = some assignments)
    (once : Unrepeated (fields.map Field.name) entries) : (assignments.map Sigma.fst).Nodup := by
  have names := assignments_names decode fields entries assignments made
  rw [Unrepeated, ← names] at once
  apply List.Nodup.of_map Slot.name
  rwa [List.map_map]

theorem assignments_perm (before after : List (String × β)) (order : before.Perm after)
    (assignments : List (Assignment fields)) (made : assignments? decode fields before = some assignments) :
    ∃ others, assignments? decode fields after = some others ∧ assignments.Perm others := by
  induction order generalizing assignments with
  | nil => exact ⟨assignments, made, .refl _⟩
  | cons entry _ ih =>
      obtain ⟨key, value⟩ := entry
      cases found : Slot.find? key fields with
      | none =>
          rw [assignments_unknown decode fields key value _ found] at made ⊢
          exact ih assignments made
      | some slot =>
          rw [assignments_field decode fields key value _ slot found] at made ⊢
          obtain ⟨read, decoded, behind⟩ := Option.bind_eq_some_iff.mp made
          obtain ⟨tail, rested, rfl⟩ := Option.map_eq_some_iff.mp behind
          obtain ⟨others, again, order⟩ := ih tail rested
          exact ⟨_, by rw [decoded, again]; rfl, order.cons _⟩
  | swap first second rest =>
      obtain ⟨key, value⟩ := first
      obtain ⟨name, other⟩ := second
      cases found : Slot.find? key fields with
      | none =>
          cases held : Slot.find? name fields with
          | none => exact ⟨assignments, by simpa only [assignments?, found, held] using made, .refl _⟩
          | some slot => exact ⟨assignments, by simpa only [assignments?, found, held] using made, .refl _⟩
      | some slot =>
          cases held : Slot.find? name fields with
          | none => exact ⟨assignments, by simpa only [assignments?, found, held] using made, .refl _⟩
          | some second =>
              simp only [assignments?, found, held, Option.bind_eq_some_iff, Option.map_eq_some_iff] at made ⊢
              obtain ⟨later, read, _, ⟨former, decoded, tail, rested, rfl⟩, rfl⟩ := made
              exact ⟨_, ⟨former, decoded, _, ⟨later, read, tail, rested, rfl⟩, rfl⟩, .swap _ _ _⟩
  | trans _ _ first second =>
      obtain ⟨between, middle, order⟩ := first assignments made
      obtain ⟨others, again, further⟩ := second between middle
      exact ⟨others, again, order.trans further⟩

end Decoding

section Layouts

variable {α : Type} (decode : (kind : Kind) → β → Option kind.Value) (layout : Layout α)

def Layout.names : List String := layout.fields.map Field.name

def Layout.decoded? (entries : List (String × β)) : Option α :=
  (assignments? decode layout.fields entries).bind fun assignments =>
    (layout.finish ((Draft.empty layout.fields).assign assignments)).toOption

theorem Layout.decoded_some (before after : List (String × β)) (rewritten : Rewritten layout.names before after)
    (once : Unrepeated layout.names before) (a : α) (decoded : layout.decoded? decode before = some a) :
    layout.decoded? decode after = some a := by
  obtain ⟨assignments, made, finished⟩ := Option.bind_eq_some_iff.mp decoded
  have separate := assignments_separate decode layout.fields before assignments made once
  rw [assignments_known] at made
  obtain ⟨others, again, order⟩ :=
    assignments_perm decode layout.fields _ _ rewritten.known_perm assignments made
  rw [Layout.names, ← assignments_known] at again
  rw [Layout.decoded?, again, Option.bind_some, ← Draft.assign_perm _ assignments others order separate, finished]

theorem Layout.decoded_rewritten (before after : List (String × β)) (rewritten : Rewritten layout.names before after)
    (once : Unrepeated layout.names before) : layout.decoded? decode before = layout.decoded? decode after := by
  ext a
  exact ⟨layout.decoded_some decode before after rewritten once a,
    layout.decoded_some decode after before rewritten.symm (rewritten.unrepeated once) a⟩

section Written

variable (write : (kind : Kind) → kind.Value → β) (faithful : layout.Faithful) (a : α)

def Layout.written : List (String × β) :=
  (Row.assignments layout.fields (layout.toRow a)).map fun assignment =>
    (assignment.1.name, write assignment.1.kind assignment.2)

include faithful

theorem Layout.written_unrepeated : Unrepeated layout.names (layout.written write a) := by
  apply unrepeated_of_distinct
  have separate := Row.assignments_distinct layout.fields (layout.toRow a)
  rw [Layout.written, List.map_map]
  have named := separate.map (Slot.name_injective faithful.distinct)
  rwa [List.map_map] at named

theorem assignments_written (restored : ∀ kind value, decode kind (write kind value) = some value)
    (assignments : List (Assignment layout.fields)) :
    assignments? decode layout.fields
      (assignments.map fun assignment => (assignment.1.name, write assignment.1.kind assignment.2)) =
        some assignments := by
  induction assignments with
  | nil => rfl
  | cons assignment others ih =>
      rw [List.map_cons, assignments_field decode _ _ _ _ _ (assignment.1.find_name faithful.distinct), restored, ih]
      rfl

theorem Layout.decoded_written (restored : ∀ kind value, decode kind (write kind value) = some value)
    (entries : List (String × β)) (rewritten : Rewritten layout.names (layout.written write a) entries) :
    layout.decoded? decode entries = some a := by
  rw [← layout.decoded_rewritten decode _ entries rewritten (layout.written_unrepeated write faithful a),
    Layout.decoded?, Layout.written, assignments_written decode layout write faithful restored, Option.bind_some,
    layout.finish_assigned faithful]
  rfl

end Written

end Layouts

end Record

end Showcase
