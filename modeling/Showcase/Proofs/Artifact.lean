import Showcase.Artifact
import Showcase.Proofs.Text

set_option autoImplicit false

namespace Showcase

theorem SampleId.members (id : SampleId) (c : Char) (member : c ∈ id.text.toList) : isIdChar c = true := by
  have valid := id.valid
  rw [isIdText, Bool.and_eq_true] at valid
  exact List.all_eq_true.mp valid.2 c member

theorem SampleId.nonempty (id : SampleId) : id.text.toList ≠ [] := by
  have valid := id.valid
  rw [isIdText, Bool.and_eq_true] at valid
  intro empty
  simp [String.toList_eq_nil_iff.mp empty] at valid

theorem SampleId.avoids (id : SampleId) (c : Char) (foreign : isIdChar c = false) : c ∉ id.text.toList := by
  intro member
  have inside := id.members c member
  rw [foreign] at inside
  cases inside

theorem SampleId.text_injective : Function.Injective SampleId.text := by
  rintro ⟨text, valid⟩ ⟨other, proper⟩ same
  cases same
  rfl

theorem SampleId.segment_members (id : SampleId) (c : Char) (member : c ∈ id.text.toList) :
    ArtifactRule.isSegmentChar c = true := by
  have inside := id.members c member
  simp only [isIdChar, Bool.or_eq_true] at inside
  rcases inside with (letter | hyphen) | underscore
  · simp [ArtifactRule.isSegmentChar, letter]
  · simp [ArtifactRule.isSegmentChar, hyphen]
  · simp [ArtifactRule.isSegmentChar, underscore]

theorem SampleId.page_path_members (id : SampleId) (c : Char) (member : c ∈ id.pagePath.toList) :
    ArtifactRule.isSegmentChar c = true ∨ c = '/' := by
  simp only [SampleId.pagePath, String.toList_append, List.mem_append] at member
  rcases member with (word | inside) | slash
  · have letters : "samples/".toList.all (fun c => ArtifactRule.isSegmentChar c || c == '/') = true := rfl
    simpa using List.all_eq_true.mp letters c word
  · exact .inl (id.segment_members c inside)
  · exact .inr (by simpa using slash)

theorem SampleId.page_path_injective : Function.Injective SampleId.pagePath := by
  intro a b same
  have texts := congrArg String.toList same
  simp only [SampleId.pagePath, String.toList_append, List.append_cancel_right_eq, List.append_cancel_left_eq] at texts
  exact SampleId.text_injective (String.toList_inj.mp texts)

namespace ArtifactRule

def folderHead (rule : ArtifactRule) : String := if rule.folder.isEmpty then "" else rule.folder ++ "/"

theorem relative_path_eq (rule : ArtifactRule) (id : SampleId) :
    rule.relativePath id = rule.folderHead ++ rule.fileName id := by
  unfold relativePath folderHead
  split <;> simp

theorem relative_path_injective (rule : ArtifactRule) : Function.Injective rule.relativePath := by
  intro a b same
  have texts := congrArg String.toList same
  simp only [relative_path_eq, String.toList_append, List.append_cancel_left_eq, fileName,
    List.append_cancel_right_eq] at texts
  exact SampleId.text_injective (String.toList_inj.mp texts)

theorem segment_char_range (c : Char) (segment : isSegmentChar c = true) : 45 ≤ c.toNat ∧ c.toNat ≤ 122 := by
  have classes : c.isAlphanum = (decide (65 ≤ c.val ∧ c.val ≤ 90) ||
      (decide (97 ≤ c.val) && decide (c.val ≤ 122)) || (decide (48 ≤ c.val) && decide (c.val ≤ 57))) := rfl
  simp only [isSegmentChar, classes, Bool.or_eq_true, Bool.and_eq_true, decide_eq_true_eq, beq_iff_eq,
    UInt32.le_iff_toNat_le, Char.toNat_val, UInt32.reduceToNat] at segment
  rcases segment with ((letter | dot) | hyphen) | underscore
  · omega
  · subst dot; decide
  · subst hyphen; decide
  · subst underscore; decide

theorem folder_head (rule : ArtifactRule) : rule.folder.toList.head? ≠ some '/' := by
  intro slash
  have stopped := Text.trim_head Text.isSlash rule.directory.toList '/' (by simpa [folder, Text.trimSlashes] using slash)
  simp [Text.isSlash] at stopped

theorem folder_last (rule : ArtifactRule) : rule.folder.toList.getLast? ≠ some '/' := by
  intro slash
  have stopped := Text.trim_end_last Text.isSlash (Text.trimStart Text.isSlash rule.directory.toList) '/'
    (by simpa [folder, Text.trimSlashes, Text.trim] using slash)
  simp [Text.isSlash] at stopped

theorem fault_none_iff (rule : ArtifactRule) :
    rule.fault? = none ↔
      (∀ segment ∈ rule.folderSegments, isSegment segment = true) ∧ isExtension rule.extension = true := by
  have none_bad : rule.folderSegments.find? (fun segment => !isSegment segment) = none ↔
      ∀ segment ∈ rule.folderSegments, isSegment segment = true := by
    simp [List.find?_eq_none]
  rw [← none_bad, fault?]
  cases rule.folderSegments.find? fun segment => !isSegment segment with
  | some segment => simp
  | none => by_cases valid : isExtension rule.extension = true <;> simp [valid]

section Faultless

variable {rule : ArtifactRule}

theorem faultless_parts (faultless : rule.fault? = none) :
    (∀ segment ∈ rule.folderSegments, isSegment segment = true) ∧ isExtension rule.extension = true :=
  (fault_none_iff rule).mp faultless

theorem folder_members (faultless : rule.fault? = none) (c : Char) (member : c ∈ rule.folder.toList) :
    isSegmentChar c = true ∨ c = '/' := by
  by_cases slash : c = '/'
  · exact .inr slash
  · left
    have nonempty : ¬ rule.folder.isEmpty = true := by
      intro empty
      simp [String.isEmpty_iff.mp empty] at member
    obtain ⟨segment, found, inside⟩ := Text.segments_cover rule.folder.toList c member slash
    have valid := (faultless_parts faultless).1 segment (by simpa only [folderSegments, if_neg nonempty] using found)
    simp only [isSegment, Bool.and_eq_true] at valid
    exact List.all_eq_true.mp valid.2 c inside

theorem extension_members (faultless : rule.fault? = none) (c : Char) (member : c ∈ rule.extension.toList) :
    c.isAlphanum = true := by
  have valid := (faultless_parts faultless).2
  simp only [isExtension, Bool.and_eq_true] at valid
  exact List.all_eq_true.mp valid.2 c member

theorem file_name_list (rule : ArtifactRule) (id : SampleId) :
    (rule.fileName id).toList = id.text.toList ++ '.' :: rule.extension.toList := by
  simp [fileName]

theorem file_name_avoids (faultless : rule.fault? = none) (id : SampleId) (c : Char)
    (foreign : isSegmentChar c = false) : c ∉ (rule.fileName id).toList := by
  simp only [isSegmentChar, Bool.or_eq_false_iff, beq_eq_false_iff_ne] at foreign
  obtain ⟨⟨⟨letter, dot⟩, hyphen⟩, underscore⟩ := foreign
  rw [file_name_list, List.mem_append, List.mem_cons]
  rintro (inside | same | inside)
  · exact id.avoids c (by simp [isIdChar, letter, hyphen, underscore]) inside
  · exact dot same
  · rw [extension_members faultless c inside] at letter
    cases letter

theorem relative_path_members (faultless : rule.fault? = none) (id : SampleId) (c : Char)
    (member : c ∈ (rule.relativePath id).toList) : isSegmentChar c = true ∨ c = '/' := by
  rw [relative_path_eq, String.toList_append, List.mem_append] at member
  rcases member with head | name
  · unfold folderHead at head
    split at head
    · simp at head
    · simp only [String.toList_append, List.mem_append] at head
      rcases head with inside | slash
      · exact folder_members faultless c inside
      · exact .inr (by simpa using slash)
  · left
    by_cases inside : isSegmentChar c = true
    · exact inside
    · exact absurd name (file_name_avoids faultless id c (Bool.eq_false_iff.mpr inside))

theorem file_name_dots (faultless : rule.fault? = none) (id : SampleId) : (rule.fileName id).toList.count '.' = 1 := by
  have stem : '.' ∉ id.text.toList := id.avoids '.' (by decide)
  have ending : '.' ∉ rule.extension.toList := by
    intro member
    have letter := extension_members faultless '.' member
    revert letter
    decide
  simp [file_name_list, List.count_eq_zero_of_not_mem stem, List.count_eq_zero_of_not_mem ending]

theorem relative_path_head (faultless : rule.fault? = none) (id : SampleId) :
    (rule.relativePath id).toList.head? ≠ some '/' := by
  have name : (rule.fileName id).toList.head? ≠ some '/' := by
    intro slash
    exact file_name_avoids faultless id '/' (by decide) (List.mem_of_mem_head? slash)
  unfold relativePath
  split
  · exact name
  · rename_i nonempty
    have plain := folder_head rule
    cases text : rule.folder.toList with
    | nil => exact absurd (String.isEmpty_iff.mpr (String.toList_eq_nil_iff.mp text)) nonempty
    | cons c rest => simpa [text] using plain

end Faultless

end ArtifactRule

end Showcase
