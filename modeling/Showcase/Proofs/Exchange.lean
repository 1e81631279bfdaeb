import Showcase.Proofs.Artifact
import Showcase.Proofs.Json

set_option autoImplicit false

namespace Showcase.Json

open Record

def scalarIds : (kind : Kind) → kind.Value → List SampleId
  | .id, id => [id]
  | .text, _ => []
  | .flag, _ => []
  | .code, _ => []
  | .mode, _ => []

def rowIds : (fields : List Field) → Row fields → List SampleId
  | [], _ => []
  | field :: rest, (value, others) => scalarIds field.kind value ++ rowIds rest others

structure Codec (α : Type) where
  write : α → String
  read : String → Except Fault α
  ids : α → List SampleId

namespace Codec

def ofKind (kind : Kind) : Codec kind.Value := ⟨scalarText kind, document (scalar kind), scalarIds kind⟩

def ofLayout {α : Type} (layout : Layout α) : Codec α :=
  ⟨compact layout, document (record layout), fun a => rowIds layout.fields (layout.toRow a)⟩

def recode {α : Type} (codec : Codec α) (text : String) : Except Fault String := (codec.read text).map codec.write

structure Lossless {α : Type} (codec : Codec α) : Prop where
  restored : ∀ value, codec.read (codec.write value) = .ok value
  proper : ∀ text value, codec.read text = .ok value → ∀ id ∈ codec.ids value,
    id.text ≠ "" ∧ ∀ c ∈ id.text.toList, c.isAlphanum = true ∨ c = '-' ∨ c = '_'
  settled : ∀ text again, codec.recode text = .ok again → codec.recode again = .ok again

theorem lossless {α : Type} (codec : Codec α) (restored : ∀ value, codec.read (codec.write value) = .ok value) :
    codec.Lossless := by
  refine ⟨restored, ?_, ?_⟩
  · intro text value _ id _
    constructor
    · intro empty
      exact id.nonempty (String.toList_eq_nil_iff.mpr empty)
    · intro c member
      simpa [isIdChar, or_assoc] using id.members c member
  · intro text again recoded
    cases read : codec.read text with
    | error fault =>
        rw [recode, read] at recoded
        cases recoded
    | ok value =>
        rw [recode, read] at recoded
        rw [← Except.ok.inj recoded, recode, restored value]
        rfl

theorem kind_lossless (kind : Kind) : (ofKind kind).Lossless := by
  apply lossless
  intro value
  have read := @scalar_written [] blank_nil kind value []
  rw [List.nil_append, List.append_nil] at read
  exact document_read (scalar kind) (scalarText kind value) value [] (by simp) read

theorem layout_lossless {α : Type} (layout : Layout α) (faithful : layout.Faithful) : (ofLayout layout).Lossless :=
  lossless (ofLayout layout) (document_compact layout faithful)

theorem id_refused (raw rest : String) (foreign : isIdText raw = false) :
    scalar .id ((quote raw ++ rest).toList) = .error (.value (.invalidId raw)) := by
  have unknown : SampleId.ofText? raw = none := dif_neg (by simp [foreign])
  have read := @sample_id_quoted [] blank_nil raw rest.toList
  rwa [unknown, List.nil_append, ← String.toList_append] at read

theorem member_id_refused {α : Type} (layout : Layout α) (distinct : (layout.fields.map Field.name).Nodup)
    (slot : Slot layout.fields) (kind : slot.kind = .id) (raw rest : String) (foreign : isIdText raw = false) :
    (ofLayout layout).read ("\x7b" ++ quote slot.name ++ ":" ++ quote raw ++ rest) =
      .error (.value (.invalidId raw)) := by
  apply document_error
  have wrong : scalar slot.kind (quote raw ++ rest).toList = .error (.value (.invalidId raw)) := by
    rw [kind]
    exact id_refused raw rest foreign
  have first := record_first_fault layout distinct slot _ _ wrong
  simpa using first

theorem exchanged_lossless :
    ((ofKind .id).Lossless ∧ (ofLayout SampleEntry.layout).Lossless ∧ (ofLayout ArtifactRule.layout).Lossless ∧
      (ofKind .code).Lossless ∧ (ofLayout ApiError.layout).Lossless ∧ (ofLayout View.layout).Lossless ∧
      (ofLayout SampleSummary.layout).Lossless ∧ (ofLayout NavItem.layout).Lossless ∧ (ofKind .mode).Lossless) ∧
    ∀ raw rest : String, isIdText raw = false →
      (ofKind .id).read (quote raw ++ rest) = .error (.value (.invalidId raw)) ∧
      (ofLayout SampleEntry.layout).read ("\x7b\"id\":" ++ quote raw ++ rest) = .error (.value (.invalidId raw)) ∧
      (ofLayout SampleSummary.layout).read ("\x7b\"id\":" ++ quote raw ++ rest) = .error (.value (.invalidId raw)) ∧
      (ofLayout NavItem.layout).read ("\x7b\"id\":" ++ quote raw ++ rest) = .error (.value (.invalidId raw)) := by
  refine ⟨⟨kind_lossless .id, layout_lossless _ SampleEntry.layout_faithful,
    layout_lossless _ ArtifactRule.layout_faithful, kind_lossless .code, layout_lossless _ ApiError.layout_faithful,
    layout_lossless _ View.layout_faithful, layout_lossless _ SampleSummary.layout_faithful,
    layout_lossless _ NavItem.layout_faithful, kind_lossless .mode⟩, ?_⟩
  intro raw rest foreign
  have key : "\x7b" ++ quote "id" ++ ":" = "\x7b\"id\":" := by decide
  refine ⟨document_error _ _ _ (id_refused raw rest foreign), ?_, ?_, ?_⟩
  · rw [← key]
    exact member_id_refused SampleEntry.layout SampleEntry.layout_faithful.distinct .here rfl raw rest foreign
  · rw [← key]
    exact member_id_refused SampleSummary.layout SampleSummary.layout_faithful.distinct .here rfl raw rest foreign
  · rw [← key]
    exact member_id_refused NavItem.layout NavItem.layout_faithful.distinct .here rfl raw rest foreign

theorem exchanged_lossless_escaped :
    let item : NavItem := ⟨⟨"a-1", by decide⟩, "\"\\\x00\x1f\n\x7f", "/é/😀", true⟩
    (ofLayout NavItem.layout).write item =
      "\x7b\"id\":\"a-1\",\"title\":\"\\\"\\\\\\u0000\\u001f\\n\x7f\",\"href\":\"/é/😀\",\"active\":true\x7d" ∧
    (ofLayout NavItem.layout).read ((ofLayout NavItem.layout).write item) = .ok item ∧
    isIdText "a/b" = false ∧
    (ofLayout NavItem.layout).read "\x7b\"id\":\"a/b\", ]" = .error (.value (.invalidId "a/b")) := by
  obtain ⟨⟨_, _, _, _, _, _, _, lossless, _⟩, refused⟩ := exchanged_lossless
  have foreign : isIdText "a/b" = false := by decide
  have id := (refused "a/b" ", ]" foreign).2.2.2
  rw [show "\x7b\"id\":" ++ quote "a/b" ++ ", ]" = "\x7b\"id\":\"a/b\", ]" by decide] at id
  exact ⟨by decide +kernel, lossless.restored _, foreign, id⟩

end Codec

end Showcase.Json
