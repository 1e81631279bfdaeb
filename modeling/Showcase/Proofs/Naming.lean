import Showcase.Proofs.Path
import Showcase.Proofs.Routes
import Showcase.Proofs.Slashes

set_option autoImplicit false

namespace Showcase

namespace Text

open FileTree.Path (joinSegments join_segments_cons)

theorem segments_join (names : List (List Char)) (nonempty : names ≠ []) (plain : ∀ name ∈ names, '/' ∉ name) :
    segments (joinSegments names) = names := by
  induction names with
  | nil => exact absurd rfl nonempty
  | cons first rest ih =>
      have whole := segments_plain first (plain first List.mem_cons_self)
      by_cases more : rest = []
      · rw [more, joinSegments, List.intercalate_singleton, whole]
      · rw [join_segments_cons first rest more, segments_slash, whole,
          ih more fun name member => plain name (List.mem_cons_of_mem first member), List.singleton_append]

theorem slashes_of_members (run : List Char) (each : ∀ c ∈ run, isSlash c = true) :
    String.ofList run = slashes run.length := by
  have same : run = List.replicate run.length '/' :=
    List.eq_replicate_of_mem fun c member => (is_slash_iff c).mp (each c member)
  rw [slashes, ← same]

theorem trim_slashes_cut (text : String) : ∃ front back, text = slashes front ++ trimSlashes text ++ slashes back := by
  obtain ⟨run, split, behind⟩ := trim_end_prefix isSlash (trimStart isSlash text.toList)
  have before : ∀ c ∈ text.toList.takeWhile isSlash, isSlash c = true := fun c member =>
    List.mem_takeWhile_imp member
  refine ⟨(text.toList.takeWhile isSlash).length, run.length, ?_⟩
  rw [← slashes_of_members _ before, ← slashes_of_members run behind, trimSlashes, trim, ← String.ofList_append,
    ← String.ofList_append, List.append_assoc, ← split, trimStart, List.takeWhile_append_dropWhile, String.ofList_toList]

end Text

namespace ArtifactRule

open FileTree.Path (joinSegments)

theorem folder_joined (rule : ArtifactRule) : String.ofList (joinSegments rule.folderSegments) = rule.folder := by
  rw [folderSegments]
  split
  · rename_i empty
    rw [String.isEmpty_iff.mp empty]
    rfl
  · rw [FileTree.Path.join_segments_segments, String.ofList_toList]

def FolderName (name : List Char) : Prop :=
  name ≠ [] ∧ name ≠ ['.'] ∧ name ≠ ['.', '.'] ∧ ∀ c ∈ name, c.isAlphanum = true ∨ c = '.' ∨ c = '_' ∨ c = '-'

def Directory (text : String) : Prop :=
  text = "" ∨ ∃ names, names ≠ [] ∧ (∀ name ∈ names, FolderName name) ∧ text = String.ofList (joinSegments names)

def Extension (text : String) : Prop := text ≠ "" ∧ ∀ c ∈ text.toList, c.isAlphanum = true

theorem is_segment_iff (segment : List Char) : isSegment segment = true ↔ FolderName segment := by
  have chars : (∀ c ∈ segment, isSegmentChar c = true) ↔
      ∀ c ∈ segment, c.isAlphanum = true ∨ c = '.' ∨ c = '_' ∨ c = '-' := by
    refine forall₂_congr fun c _ => ?_
    simp only [isSegmentChar, Bool.or_eq_true, beq_iff_eq, or_assoc]
    rw [or_comm (a := c = '-')]
  simp only [isSegment, FolderName, Bool.and_eq_true, bne_iff_ne, List.all_eq_true, chars, and_assoc]

theorem is_extension_iff (text : String) : isExtension text = true ↔ Extension text := by
  simp [isExtension, Extension]

theorem folder_name_slashless (name : List Char) (proper : FolderName name) : '/' ∉ name := by
  intro inside
  rcases proper.2.2.2 '/' inside with letter | dot | underscore | hyphen
  · revert letter
    decide
  · cases dot
  · cases underscore
  · cases hyphen

theorem directory_iff (rule : ArtifactRule) :
    Directory rule.folder ↔ ∀ name ∈ rule.folderSegments, FolderName name := by
  by_cases empty : rule.folder.isEmpty = true
  · rw [folderSegments, if_pos empty]
    exact iff_of_true (.inl (String.isEmpty_iff.mp empty)) (List.forall_mem_nil _)
  · rw [folderSegments, if_neg empty]
    constructor
    · rintro (blank | ⟨names, nonempty, proper, joined⟩)
      · exact absurd (String.isEmpty_iff.mpr blank) empty
      · rw [joined, String.toList_ofList, Text.segments_join names nonempty fun name member =>
          folder_name_slashless name (proper name member)]
        exact proper
    · intro proper
      refine .inr ⟨_, Text.segments_ne_nil _, proper, ?_⟩
      rw [FileTree.Path.join_segments_segments, String.ofList_toList]

def BadSegment (rule : ArtifactRule) (bad : List Char) : Prop :=
  ∃ before after, rule.folderSegments = before ++ bad :: after ∧ (∀ name ∈ before, FolderName name) ∧ ¬ FolderName bad

theorem fault_some_iff (rule : ArtifactRule) (fault : RuleFault) :
    rule.fault? = some fault ↔
      (∃ bad, BadSegment rule bad ∧ fault = .badSegment rule.directory (String.ofList bad)) ∨
      Directory rule.folder ∧ ¬ Extension rule.extension ∧ fault = .badExtension rule.extension := by
  have leftmost : ∀ bad, rule.folderSegments.find? (fun segment => !isSegment segment) = some bad ↔
      BadSegment rule bad := by
    intro bad
    simp only [List.find?_eq_some_iff_append, BadSegment, ← is_segment_iff, Bool.not_not, Bool.not_eq_true',
      Bool.not_eq_true]
    constructor
    · rintro ⟨refused, before, after, split, proper⟩
      exact ⟨before, after, split, proper, refused⟩
    · rintro ⟨before, after, split, proper, refused⟩
      exact ⟨refused, before, after, split, proper⟩
  have none_bad : rule.folderSegments.find? (fun segment => !isSegment segment) = none ↔ Directory rule.folder := by
    simp [List.find?_eq_none, directory_iff, is_segment_iff]
  simp only [← none_bad, ← is_extension_iff, ← leftmost, fault?]
  cases rule.folderSegments.find? fun segment => !isSegment segment with
  | some segment =>
      constructor
      · intro same
        exact .inl ⟨segment, rfl, (Option.some.inj same).symm⟩
      · rintro (⟨bad, same, rfl⟩ | ⟨absent, _⟩)
        · rw [Option.some.inj same]
        · cases absent
  | none =>
      by_cases valid : isExtension rule.extension = true
      · simp [valid]
      · simp [valid, eq_comm]

section Faultless

variable {rule : ArtifactRule} (faultless : rule.fault? = none)

include faultless

theorem path_segments (id : SampleId) :
    Text.segments (rule.relativePath id).toList = rule.folderSegments ++ [(rule.fileName id).toList] := by
  rw [relative_path_eq]
  exact Server.folder_segments rule _ (file_name_avoids faultless id '/' (by decide))

theorem extension_dotless : '.' ∉ rule.extension.toList := by
  intro member
  have letter := extension_members faultless '.' member
  revert letter
  decide

theorem last_dot (id : SampleId) (stem ending : List Char) :
    (rule.fileName id).toList = stem ++ '.' :: ending ∧ '.' ∉ ending ↔
      stem = id.text.toList ∧ ending = rule.extension.toList := by
  rw [file_name_list]
  constructor
  · rintro ⟨same, dotless⟩
    have plain : ∀ text : List Char, '.' ∉ text → ∀ c ∈ text.reverse, (c == '.') = false := by
      intro text absent c member
      rw [beq_eq_false_iff_ne]
      rintro rfl
      exact absent (List.mem_reverse.mp member)
    -- Read from the right, a file name falls apart at the first dot.
    have mirrored : ending.reverse ++ '.' :: stem.reverse =
        rule.extension.toList.reverse ++ '.' :: id.text.toList.reverse := by
      simpa using congrArg List.reverse same.symm
    obtain ⟨endings, stems⟩ := Text.cut_unique (· == '.') _ _ _ _
      ⟨plain ending dotless, plain _ (extension_dotless faultless)⟩ (by simp) (by simp) mirrored
    exact ⟨List.reverse_injective (List.cons.inj stems).2, List.reverse_injective endings⟩
  · rintro ⟨rfl, rfl⟩
    exact ⟨rfl, extension_dotless faultless⟩

theorem path_determines (other : ArtifactRule) (accepted : other.fault? = none) (id : SampleId)
    (same : rule.relativePath id = other.relativePath id) :
    rule.folder = other.folder ∧ rule.extension = other.extension := by
  have segments := path_segments faultless id
  rw [same, path_segments accepted id] at segments
  obtain ⟨folders, names⟩ := List.append_inj' segments.symm rfl
  have files := List.singleton_inj.mp names
  rw [file_name_list, file_name_list, List.append_cancel_left_eq, List.cons.injEq] at files
  exact ⟨by rw [← folder_joined, folders, folder_joined], String.toList_inj.mp files.2⟩

end Faultless

structure Stripped (text core : String) : Prop where
  around : ∃ front back, text = Text.slashes front ++ core ++ Text.slashes back
  head : core.toList.head? ≠ some '/'
  last : core.toList.getLast? ≠ some '/'

structure Legible (rule : ArtifactRule) : Prop where
  segments : ∀ id, Text.segments (rule.relativePath id).toList = rule.folderSegments ++ [(rule.fileName id).toList]
  dot : ∀ id stem ending, (rule.fileName id).toList = stem ++ '.' :: ending ∧ '.' ∉ ending ↔
    stem = id.text.toList ∧ ending = rule.extension.toList
  ids : Function.Injective rule.relativePath
  rules : ∀ (other : ArtifactRule) id, other.fault? = none → rule.relativePath id = other.relativePath id →
    rule.folder = other.folder ∧ rule.extension = other.extension

theorem rule_grammar (rule : ArtifactRule) :
    Stripped rule.directory rule.folder ∧
    (rule.fault? = none ↔ Directory rule.folder ∧ Extension rule.extension) ∧
    (∀ fault, rule.fault? = some fault ↔
      (∃ bad, BadSegment rule bad ∧ fault = .badSegment rule.directory (String.ofList bad)) ∨
      Directory rule.folder ∧ ¬ Extension rule.extension ∧ fault = .badExtension rule.extension) ∧
    (rule.fault? = none → Legible rule) := by
  refine ⟨⟨Text.trim_slashes_cut rule.directory, folder_head rule, folder_last rule⟩, ?_, fault_some_iff rule, ?_⟩
  · rw [fault_none_iff, directory_iff, is_extension_iff]
    simp only [is_segment_iff]
  · intro faultless
    exact ⟨path_segments faultless, last_dot faultless, relative_path_injective rule,
      fun other id accepted same => path_determines faultless other accepted id same⟩

theorem rule_grammar_nested : (⟨"//build/ir.v1/", "ll"⟩ : ArtifactRule).fault? = none ∧
    Text.segments ((⟨"//build/ir.v1/", "ll"⟩ : ArtifactRule).relativePath ⟨"a-b", by decide⟩).toList =
      ["build".toList, "ir.v1".toList, "a-b.ll".toList] ∧
    ∀ other : ArtifactRule, other.fault? = none →
      other.relativePath ⟨"a-b", by decide⟩ = "build/ir.v1/a-b.ll" →
      other.folder = "build/ir.v1" ∧ other.extension = "ll" := by
  have accepted : (⟨"//build/ir.v1/", "ll"⟩ : ArtifactRule).fault? = none := by decide
  have legible := (rule_grammar ⟨"//build/ir.v1/", "ll"⟩).2.2.2 accepted
  refine ⟨accepted, legible.segments _, ?_⟩
  intro other proper same
  have read := legible.rules other ⟨"a-b", by decide⟩ proper same.symm
  exact ⟨read.1.symm, read.2.symm⟩

end ArtifactRule

end Showcase
