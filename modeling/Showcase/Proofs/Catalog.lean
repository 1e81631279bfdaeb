import Showcase.Catalog.Read
import Showcase.Proofs.Artifact
import Showcase.Proofs.Document
import Showcase.Proofs.Registry

set_option autoImplicit false

namespace Showcase

open Record (Layout Row)

namespace Toml

section Tables

variable {α : Type} (layout : Layout α) (opening : Opening) (name : String) (a : α)

def tableTexts : List (List Char) :=
  headerText opening name :: assignedTexts (Row.assignments layout.fields (layout.toRow a))

def tableBlock : Block := ⟨opening, [], name, assignedPairs (Row.assignments layout.fields (layout.toRow a))⟩

def tableLines : List Line :=
  .header opening [] name :: (assignedPairs (Row.assignments layout.fields (layout.toRow a))).map .pair

def tableValue : Value := .table .header (assignedMembers (Row.assignments layout.fields (layout.toRow a)))

theorem table_written (named : isBareName name = true)
    (bare : ∀ field ∈ layout.fields, isBareName field.name = true) :
    List.Forall₂ Writes (tableTexts layout opening name a) (tableLines layout opening name a) :=
  .cons (writes_header named opening) (assigned_written bare _)

theorem blocks_table (lines : List Line) (ended : (blocks lines).1 = []) :
    blocks (tableLines layout opening name a ++ lines) = ([], tableBlock layout opening name a :: (blocks lines).2) := by
  rw [tableLines, List.cons_append, blocks, blocks_pairs, ended, List.append_nil]
  rfl

theorem block_inserted (faithful : layout.Faithful) :
    insertAll (tableBlock layout opening name a).pairs [] =
      some (assignedMembers (Row.assignments layout.fields (layout.toRow a))) :=
  insert_assigned faithful.distinct _ (Row.assignments_distinct _ _) [] (by simp)

theorem table_applied (faithful : layout.Faithful) :
    (tableBlock layout .table name a).apply [] = some [(name, tableValue layout a)] := by
  change openTable name (tableBlock layout .table name a).pairs [] = _
  unfold openTable
  dsimp only [List.lookup_nil]
  rw [Option.bind_eq_bind, Option.bind_some, block_inserted layout .table name a faithful]
  rfl

section Elements

variable (members : Members) (absent : members.lookup name = none)
include absent

theorem first_element_applied (faithful : layout.Faithful) :
    (tableBlock layout .element name a).apply members =
      some (members ++ [(name, .array true [tableValue layout a])]) := by
  change openElement name (tableBlock layout .element name a).pairs members = _
  rw [openElement, block_inserted layout .element name a faithful, absent]
  rfl

theorem replace_last (value other : Value) :
    replace name value (members ++ [(name, other)]) = members ++ [(name, value)] := by
  have kept : replace name value members = members := by
    refine (List.map_congr_left ?_).trans (List.map_id members)
    intro member inside
    have different := List.lookup_eq_none_iff.mp absent member inside
    exact if_neg (Ne.symm (bne_iff_ne.mp different))
  rw [replace, List.map_append, ← replace, kept]
  simp

theorem element_applied (faithful : layout.Faithful) (items : List Value) :
    (tableBlock layout .element name a).apply (members ++ [(name, .array true items)]) =
      some (members ++ [(name, .array true (items ++ [tableValue layout a]))]) := by
  have found : (members ++ [(name, Value.array true items)]).lookup name = some (.array true items) := by
    rw [List.lookup_append, absent]
    simp
  change openElement name (tableBlock layout .element name a).pairs (members ++ [(name, .array true items)]) = _
  rw [openElement, block_inserted layout .element name a faithful]
  simp only [Option.bind_eq_bind, Option.bind_some, found, replace_last name members absent]
  rfl

theorem further_elements_applied (faithful : layout.Faithful) (others : List α) (items : List Value) :
    (others.map (tableBlock layout .element name)).foldlM (fun members block => block.apply members)
        (members ++ [(name, .array true items)]) =
      some (members ++ [(name, .array true (items ++ others.map (tableValue layout)))]) := by
  -- By induction on the records, with the elements in front of them as the array so far.
  induction others generalizing items with
  | nil => simp
  | cons a others ih =>
      rw [List.map_cons, List.foldlM_cons, element_applied layout name a members absent faithful, Option.bind_eq_bind,
        Option.bind_some, ih, List.append_assoc]
      rfl

end Elements

end Tables

theorem list_tables {α : Type} (layout : Layout α) (faithful : layout.Faithful) (items : List α) :
    list (record layout) (.array true (items.map (tableValue layout))) = .ok items := by
  rw [list]
  induction items with
  | nil => rfl
  | cons a items ih =>
      rw [List.map_cons, List.mapM_cons, ih, tableValue, record_table layout faithful]
      rfl

end Toml

namespace Catalog

open Toml

def lineTexts (catalog : Catalog) : List (List Char) :=
  tableTexts ArtifactRule.layout .table "artifacts" catalog.rule ++
    catalog.samples.flatMap (tableTexts SampleEntry.layout .element "samples")

def write (catalog : Catalog) : String := String.ofList (catalog.lineTexts.flatMap fun text => text ++ ['\n'])

def lines (catalog : Catalog) : List Line :=
  tableLines ArtifactRule.layout .table "artifacts" catalog.rule ++
    catalog.samples.flatMap (tableLines SampleEntry.layout .element "samples")

theorem lines_read (catalog : Catalog) : List.Forall₂ Writes catalog.lineTexts catalog.lines := by
  refine List.rel_append (table_written _ _ _ _ (by decide) (by decide)) ?_
  induction catalog.samples with
  | nil => exact .nil
  | cons entry others ih => exact List.rel_append (table_written _ _ _ _ (by decide) (by decide)) ih

theorem lines_blocks (catalog : Catalog) :
    blocks catalog.lines = ([], tableBlock ArtifactRule.layout .table "artifacts" catalog.rule ::
      catalog.samples.map (tableBlock SampleEntry.layout .element "samples")) := by
  have elements : blocks (catalog.samples.flatMap (tableLines SampleEntry.layout .element "samples")) =
      ([], catalog.samples.map (tableBlock SampleEntry.layout .element "samples")) := by
    induction catalog.samples with
    | nil => rfl
    | cons entry others ih =>
        rw [List.flatMap_cons, blocks_table _ _ _ _ _ (congrArg Prod.fst ih), ih]
        rfl
  rw [lines, blocks_table _ _ _ _ _ (congrArg Prod.fst elements), elements]

theorem write_parsed (catalog : Catalog) :
    parse? catalog.write = (catalog.samples.map (tableBlock SampleEntry.layout .element "samples")).foldlM
      (fun members block => block.apply members) [("artifacts", tableValue ArtifactRule.layout catalog.rule)] := by
  have unmarked : dropByteOrderMark catalog.write.toList = catalog.lineTexts.flatMap fun text => text ++ ['\n'] := by
    rw [write, String.toList_ofList]
    rfl
  rw [parse?, unmarked, lines_written _ _ catalog.lines_read _ (lines_length catalog.lineTexts)]
  have start : insertAll [] [] = some [] := rfl
  simp only [Option.bind_eq_bind, Option.bind_some, lines_blocks, assemble, start, List.foldlM_cons,
    table_applied _ _ _ ArtifactRule.layout_faithful]

theorem of_members_written (catalog : Catalog) :
    ofMembers [("artifacts", tableValue ArtifactRule.layout catalog.rule),
      ("samples", .array true (catalog.samples.map (tableValue SampleEntry.layout)))] = .ok catalog := by
  have ruled : Toml.record ArtifactRule.layout (tableValue ArtifactRule.layout catalog.rule) = .ok catalog.rule :=
    record_table _ ArtifactRule.layout_faithful .header _
  have listed := list_tables SampleEntry.layout SampleEntry.layout_faithful catalog.samples
  have unlike : "samples" ≠ "artifacts" := by decide
  simp only [ofMembers, List.foldlM_cons, List.foldlM_nil, if_true, if_neg unlike, ruled, listed, Except.map, bind,
    Except.bind]
  rfl

/-- A catalog without samples has no array of them, and takes the default list. -/
theorem read_write (catalog : Catalog) : read catalog.write = .ok catalog := by
  obtain ⟨rule, samples⟩ := catalog
  rw [read, write_parsed]
  cases samples with
  | nil =>
      have ruled : Toml.record ArtifactRule.layout (tableValue ArtifactRule.layout rule) = .ok rule :=
        record_table _ ArtifactRule.layout_faithful .header _
      simp only [List.map_nil, List.foldlM_nil, pure, ofMembers, List.foldlM_cons, if_true, ruled, Except.map, bind,
        Except.bind]
      rfl
  | cons entry others =>
      have absent : List.lookup "samples" [("artifacts", tableValue ArtifactRule.layout rule)] = none := rfl
      rw [List.map_cons, List.foldlM_cons, first_element_applied _ _ _ _ absent SampleEntry.layout_faithful,
        Option.bind_eq_bind, Option.bind_some,
        further_elements_applied _ _ _ absent SampleEntry.layout_faithful]
      exact congrArg (Except.mapError DocumentFault.value) (of_members_written ⟨rule, entry :: others⟩)

theorem written_registry (catalog : Catalog) (faultless : catalog.rule.fault? = none) (nonempty : catalog.samples ≠ [])
    (distinct : (catalog.samples.map SampleEntry.id).Nodup) :
    ∃ registry, Registry.ofDocument catalog.write = .ok registry ∧
      registry.entries = catalog.samples ∧ registry.rule = catalog.rule := by
  have texts : (catalog.samples.map fun entry => entry.id.text).Nodup := by
    have mapped := distinct.map SampleId.text_injective
    rwa [List.map_map] at mapped
  obtain ⟨registry, built⟩ := Registry.of_entries_ok catalog.samples catalog.rule nonempty faultless texts
  obtain ⟨entries, rule, -⟩ := Registry.of_entries_rule built
  refine ⟨registry, ?_, entries, rule⟩
  rw [Registry.ofDocument, read_write]
  exact built

/-- Texts that look like the end of a text, like a header or like an escape, in an order of ids that is not sorted. -/
def awkward : Catalog where
  rule := ⟨"/out/v1.0/", "o"⟩
  samples :=
    [⟨⟨"z", by decide⟩, "\"\"\" # \\", "a = \"\"\n[artifacts]\r\n\t\\u0041", "\x00\x1b\x7f"⟩,
     ⟨⟨"A-1_", by decide⟩, "", "\\\"\n'''\n[[samples]]", "\u0085 ∀ 𝄞"⟩]

theorem written_registry_awkward :
    awkward.lineTexts.map String.ofList =
      ["[artifacts]", "directory = \"/out/v1.0/\"", "extension = \"o\"",
       "[[samples]]", "id = \"z\"", "title = \"\\\"\\\"\\\" # \\\\\"",
       "source_text = \"a = \\\"\\\"\\u000a[artifacts]\\u000d\\u000a\\u0009\\\\u0041\"",
       "expected_output = \"\\u0000\\u001b\\u007f\"",
       "[[samples]]", "id = \"A-1_\"", "title = \"\"", "source_text = \"\\\\\\\"\\u000a'''\\u000a[[samples]]\"",
       "expected_output = \"\\u0085 ∀ 𝄞\""] ∧
    ∃ registry, Registry.ofDocument awkward.write = .ok registry ∧
      registry.entries = awkward.samples ∧ registry.rule = awkward.rule :=
  ⟨rfl, written_registry awkward (by decide) (by decide) (by decide)⟩

end Catalog

end Showcase
