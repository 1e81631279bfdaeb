import Showcase.Proofs.Disclosure
import Showcase.Proofs.Naming
import Showcase.Proofs.Spelling

set_option autoImplicit false

namespace Showcase.Export

open FileTree
open FileTree.Path (join opened joinSegments)

theorem opened_below (base : String) (names : List Name) :
    opened (below base names) =
      opened base ++ opened (String.ofList (joinSegments (names.map fun name => name.text.toList))) := by
  have nothing : opened (String.ofList (joinSegments [])) = "" := rfl
  induction names generalizing base with
  | nil => rw [List.map_nil, nothing, String.append_empty, below, List.foldl_nil]
  | cons name rest ih =>
      have step : below base (name :: rest) = below (join base name.text) rest := rfl
      rw [step, ih, Path.opened_join base name.text name.plain, String.append_assoc, List.map_cons]
      congr 1
      cases rest with
      | nil =>
          rw [List.map_nil, nothing, String.append_empty]
          simp [joinSegments, List.intercalate]
      | cons next others =>
          have more : String.ofList (joinSegments ((next :: others).map fun name => name.text.toList)) ≠ "" := by
            intro empty
            obtain ⟨c, inside⟩ := List.exists_mem_of_ne_nil next.text.toList (by simpa using next.nonempty)
            have member := Path.mem_join_segments ((next :: others).map fun name => name.text.toList) next.text.toList
              List.mem_cons_self c inside
            rw [← String.toList_ofList (l := joinSegments _), empty] at member
            cases member
          rw [← Path.opened_append (opened name.text) _ more, name_opened, Path.join_segments_cons _ _ (by simp)]
          congr 1
          rw [← String.toList_inj]
          simp

section Artifact

variable {registry : Registry} (faultless : registry.rule.fault? = none)

include faultless

theorem artifact_below (id : SampleId) :
    ∃ names : List Name, names ≠ [] ∧ ∀ base, join base (registry.rule.relativePath id) = below base names := by
  obtain ⟨folders, texts, _⟩ := Server.folder_names faultless
  have plain := (Server.plain_name_iff _).mp (Server.Site.file_name_served faultless id)
  let file : Name := ⟨registry.rule.fileName id, Server.plain_name_proper _ plain⟩
  refine ⟨folders ++ [file], by simp, ?_⟩
  intro base
  rw [below_snoc, Path.join_plain _ _ file.plain, opened_below, texts, ArtifactRule.folder_joined, ArtifactRule.folder_opened,
    Path.join_plain base _ (ArtifactRule.relative_path_head faultless id), ArtifactRule.relative_path_eq,
    String.append_assoc]

theorem download_ok (id : SampleId) (content : Bytes) :
    Server.Site.download (registry.rule.fileName id) (.ok content) =
      { status := 200
        contentType := some Server.Response.plainText
        contentDisposition := some ("attachment; filename=\"" ++ registry.rule.fileName id ++ "\"")
        body := content } := by
  rw [Server.Site.download, Server.Site.attachment, if_pos (Server.Site.file_name_header faultless id)]

end Artifact

section Exported

variable {entries : List SampleEntry} {rule : ArtifactRule} {registry : Registry} {deployment : Deployment}
variable {source output : String} {tree final : FileTree} {report : Report}

theorem asset_exported (built : Registry.ofEntries entries rule = .ok registry) (free : LinkFree tree)
    (directory : tree.isDirectory source = true)
    (exported : (run registry deployment source output).run tree = (.ok report, final)) (names : List Name)
    (inner : names ≠ []) (file : File) (opened : tree.openFile (below source names) = .ok file) :
    final.openFile (below output names) = .ok file := by
  obtain ⟨made, _, _, _, _, prepared, _⟩ := run_stages registry deployment source output tree final report exported
  have grown := ensure_directories_growing output tree
  rw [prepared] at grown
  have madeFree := ensured_link_free free prepared
  have madeSource := is_directory_grows free _ grown source directory
  obtain ⟨spelled, held⟩ := (open_below_iff tree free source directory names inner file).mp opened
  have supplied : Supplies made source names (.file file) := by
    refine ⟨madeSource, ?_⟩
    rw [target_congr made tree grown.current]
    exact (grown.files _ id file).mpr held
  obtain ⟨_, layers, _⟩ := run_layers built free prepared exported (.inl madeSource)
  have filled := layers_grows layers
  have finalFree := grows_link_free _ made final filled madeFree
  have finalOutput := is_directory_grows madeFree _ filled output (output_directory prepared exported madeSource)
  -- The path could be too long below the output directory, but then the copy of the file would have failed.
  have faultless := (run_passed free prepared exported madeSource names _ supplied).1.taken.1
  rw [below_join_empty output names inner] at faultless
  apply (open_below_iff final finalFree output finalOutput names inner file).mpr
  refine ⟨⟨faultless, spelled.2⟩, ?_⟩
  rw [target_congr final made filled.current]
  exact layers.arrived names _ supplied

end Exported

section Served

variable {entries : List SampleEntry} {rule : ArtifactRule} {registry : Registry} {basePath : String}
variable {deployment : Deployment}

theorem downloads_agree (built : Registry.ofEntries entries rule = .ok registry)
    (free : Server.ensureFolderFree registry = .ok ()) (accepted : Deployment.ofBasePath basePath = .ok deployment)
    (rooted : deployment.basePath.toList.head? = some '/') (notHealth : deployment.basePath ≠ "/healthz/")
    (tree : FileTree) (linkFree : LinkFree tree) (source : String) (directory : tree.isDirectory source = true)
    (entry : SampleEntry) (content : Bytes)
    (read : tree.read (join source (registry.artifactPath entry)) = .ok content) :
    ∃ router, Server.Router.build registry deployment = .ok router ∧
      Server.Gets ⟨registry, deployment, source⟩ router tree (View.ofEntry registry deployment entry).downloadHref
        { status := 200
          contentType := some Server.Response.plainText
          contentDisposition := some ("attachment; filename=\"" ++ registry.downloadLabel entry ++ "\"")
          body := content } ∧
      (View.ofEntry registry deployment entry).downloadHref = deployment.basePath ++ registry.artifactPath entry ∧
      ∀ output report final, (run registry deployment source output).run tree = (.ok report, final) →
        final.read (join output (registry.artifactPath entry)) = .ok content := by
  have faultless := (Registry.of_entries_rule built).2.2
  have served := Server.file_served built free accepted rooted notHealth source tree entry.id
  obtain ⟨names, inner, spelled⟩ := artifact_below faultless entry.id
  refine ⟨_, Server.Router.build_ok accepted rooted notHealth registry free, ?_, ?_, ?_⟩
  · have gets := served.gets
    rw [show tree.read (join source (registry.rule.relativePath entry.id)) = .ok content from read,
      download_ok faultless] at gets
    exact gets
  · exact Deployment.resolve_append accepted _ (ArtifactRule.relative_path_head faultless entry.id)
  · intro output report final exported
    rw [Registry.artifactPath, spelled] at read ⊢
    obtain ⟨_, opened⟩ := (read_ok_iff tree _ content).mp read
    exact open_read final _ _ (asset_exported built linkFree directory exported names inner _ opened)

end Served

def cover : SampleEntry := ⟨⟨"index", by decide⟩, "Cover", "begin end.", ""⟩

theorem downloads_agree_cover : ∃ registry router final report,
    Registry.ofEntries [cover] ⟨"//", "html"⟩ = .ok registry ∧ Server.ensureFolderFree registry = .ok () ∧
    Deployment.ofBasePath "/site" = .ok ⟨"/site/"⟩ ∧ LinkFree stocked ∧ stocked.isDirectory "public" = true ∧
    stocked.read "public/index.html" = .ok [1] ∧
    Server.Router.build registry ⟨"/site/"⟩ = .ok router ∧
    Server.Gets ⟨registry, ⟨"/site/"⟩, "public"⟩ router stocked "/site/index.html"
      { status := 200
        contentType := some "text/plain; charset=utf-8"
        contentDisposition := some "attachment; filename=\"index.html\""
        body := [1] } ∧
    (run registry ⟨"/site/"⟩ "public" "dist").run stocked = (.ok report, final) ∧
    final.read "dist/index.html" = .ok [1] := by
  obtain ⟨registry, built⟩ := Registry.of_entries_ok [cover] ⟨"//", "html"⟩ (by decide) (by decide) (by decide)
  obtain ⟨_, ruled, _⟩ := Registry.of_entries_rule built
  have free : Server.ensureFolderFree registry = .ok () := by
    rw [Server.ensureFolderFree, ruled]
    decide
  have accepted : Deployment.ofBasePath "/site" = .ok ⟨"/site/"⟩ := by decide
  have present : stocked.isDirectory "public" = true := by decide +kernel
  have read : stocked.read "public/index.html" = .ok [1] := by decide +kernel
  have path : registry.artifactPath cover = "index.html" := by
    rw [Registry.artifactPath, ruled]
    decide
  have label : registry.downloadLabel cover = "index.html" := by
    rw [Registry.downloadLabel, ruled]
    decide
  have done : ((loneRun cover ⟨"//", "html"⟩ ⟨"/site/"⟩ "public" "dist").run stocked).1 =
      .ok ⟨["dist/index.html", "dist/samples/index/index.html"], 2⟩ := by decide +kernel
  rw [← run_lone cover _ registry built] at done
  have joined : join "public" (registry.artifactPath cover) = "public/index.html" := by
    rw [path]
    decide
  obtain ⟨router, routed, gets, href, copies⟩ := downloads_agree built free accepted rfl (by decide) stocked
    stocked_link_free "public" present cover [1] (by rw [joined]; exact read)
  have exported : (run registry ⟨"/site/"⟩ "public" "dist").run stocked = (.ok _, _) := Prod.ext done rfl
  have copied := copies "dist" _ _ exported
  rw [path] at href copied
  rw [href, label] at gets
  exact ⟨registry, router, _, _, built, free, accepted, stocked_link_free, present, read, routed, gets, exported, copied⟩

end Showcase.Export
