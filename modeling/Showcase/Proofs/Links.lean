import Showcase.Proofs.Path
import Showcase.Proofs.Routes
import Showcase.Proofs.Selection
import Showcase.Server.Site

set_option autoImplicit false

namespace Showcase

open FileTree.Path (join opened)

theorem ArtifactRule.folder_opened (rule : ArtifactRule) : opened rule.folder = rule.folderHead := by
  have last := rule.folder_last
  unfold opened ArtifactRule.folderHead
  by_cases empty : rule.folder = ""
  · simp [empty]
  · simp [empty, last]

theorem SampleId.proper (id : SampleId) : FileTree.isName id.text = true := by
  have dotless : '.' ∉ id.text.toList := id.avoids '.' (by decide)
  refine (FileTree.is_name_iff id.text).mpr ⟨?_, ?_, ?_, id.avoids '/' (by decide)⟩
  · intro empty
    exact id.nonempty (String.toList_eq_nil_iff.mpr empty)
  · intro dot
    simp [dot] at dotless
  · intro dots
    simp [dots] at dotless

theorem BasePath.segment_plain (c : Char) (segment : ArtifactRule.isSegmentChar c = true ∨ c = '/') :
    BasePath.Plain c := by
  have foreign : ∀ mark, ArtifactRule.isSegmentChar mark = false → mark ≠ '/' → c ≠ mark := by
    rintro mark outside other rfl
    rcases segment with inside | slash
    · rw [outside] at inside
      cases inside
    · exact other slash
  have range : 45 ≤ c.toNat ∧ c.toNat ≤ 122 := by
    rcases segment with inside | slash
    · exact ArtifactRule.segment_char_range c inside
    · subst slash
      decide
  refine ⟨foreign '*' (by decide) (by decide), foreign ':' (by decide) (by decide), foreign '?' (by decide) (by decide),
    foreign '#' (by decide) (by decide), ?_, ?_⟩
  · rw [Text.isBlank, List.any_eq_false]
    rintro ⟨low, high⟩ member
    simp only [Text.blankRanges, List.mem_cons, Prod.mk.injEq, List.not_mem_nil, or_false] at member
    simp only [Bool.and_eq_true, decide_eq_true_eq]
    omega
  · simp only [Text.isControl, Bool.or_eq_false_iff, Bool.and_eq_false_iff, decide_eq_false_iff_not]
    omega

namespace Server

theorem asked_plain (path : String) (rooted : path.toList.head? = some '/')
    (marks : ∀ c ∈ path.toList, c ≠ '?' ∧ c ≠ '#') : ({ uri := path } : Request).path? = some path := by
  have whole : path.toList.takeWhile (fun c => c != '?' && c != '#') = path.toList := by
    rw [List.takeWhile_eq_self_iff]
    intro c member
    simpa using marks c member
  simp [Request.path?, whole, rooted]

structure Gets (site : Site) (router : Router) (tree : FileTree) (path : String) (response : Response) : Prop where
  asked : ({ uri := path } : Request).path? = some path
  answered : ∀ request : Request, request.method = "GET" → request.path? = some path →
    site.respond router tree request = response

theorem gets_dispatched (site : Site) (router : Router) (tree : FileTree) (path : String) (endpoint : Endpoint)
    (segment : String) (asked : ({ uri := path } : Request).path? = some path)
    (dispatched : router.dispatch? path = some (endpoint, segment)) :
    Gets site router tree path (site.answer tree endpoint segment) := by
  refine ⟨asked, ?_⟩
  intro request reading same
  rw [Site.respond, same, Option.bind_some, dispatched]
  exact if_pos reading

structure Serves (site : Site) (router : Router) (tree : FileTree) (path : String) (endpoint : Endpoint)
    (segment : String) (response : Response) : Prop where
  routed : router.dispatch? path = some (endpoint, segment)
  decoded : Text.Percent.decode? segment = some segment
  gets : Gets site router tree path response

namespace Site

theorem is_file_name_iff (name : String) :
    isFileName name = true ↔ name ≠ "" ∧ name.toList.head? ≠ some '.' ∧ '/' ∉ name.toList ∧ '\\' ∉ name.toList ∧
      ¬ ['.', '.'] <:+: name.toList := by
  simp only [isFileName, Bool.and_eq_true, Bool.not_eq_true', bne_iff_ne, List.isEmpty_eq_false_iff, ne_eq,
    String.toList_eq_nil_iff, List.any_eq_false, Bool.or_eq_true, beq_iff_eq, not_or, ← Text.contains_iff,
    Bool.not_eq_true]
  constructor
  · rintro ⟨⟨⟨nonempty, shown⟩, plain⟩, dots⟩
    exact ⟨nonempty, shown, fun member => (plain _ member).1 rfl, fun member => (plain _ member).2 rfl, dots⟩
  · rintro ⟨nonempty, shown, slash, backslash, dots⟩
    refine ⟨⟨⟨nonempty, shown⟩, ?_⟩, dots⟩
    intro c member
    exact ⟨fun same => slash (same ▸ member), fun same => backslash (same ▸ member)⟩

theorem download_error (name : String) (fault : IoFault) :
    (download name (.error fault)).status = if fault = .notFound then 404 else 500 := by
  cases fault <;> rfl

section Faultless

variable {rule : ArtifactRule}

theorem file_name_served (faultless : rule.fault? = none) (id : SampleId) : isFileName (rule.fileName id) = true := by
  rw [is_file_name_iff]
  refine ⟨?_, ?_, ?_, ?_, ?_⟩
  · intro empty
    have text := rule.file_name_list id
    simp [empty] at text
  · intro dot
    rw [rule.file_name_list id, List.head?_append_of_ne_nil _ id.nonempty] at dot
    exact id.avoids '.' (by decide) (List.mem_of_mem_head? dot)
  · exact ArtifactRule.file_name_avoids faultless id '/' (by decide)
  · exact ArtifactRule.file_name_avoids faultless id '\\' (by decide)
  · intro doubled
    have twice := doubled.sublist.count_le '.'
    rw [ArtifactRule.file_name_dots faultless id] at twice
    revert twice
    decide

theorem header_segment (c : Char) (segment : ArtifactRule.isSegmentChar c = true) : isHeaderChar c = true := by
  have range := ArtifactRule.segment_char_range c segment
  simp only [isHeaderChar, Bool.or_eq_true, Bool.and_eq_true, decide_eq_true_eq, bne_iff_ne]
  right
  omega

theorem file_name_header (faultless : rule.fault? = none) (id : SampleId) :
    (rule.fileName id).toList.all isHeaderChar = true := by
  rw [List.all_eq_true]
  intro c member
  cases segment : ArtifactRule.isSegmentChar c with
  | false => exact absurd member (ArtifactRule.file_name_avoids faultless id c segment)
  | true => exact header_segment c segment

theorem download_file (faultless : rule.fault? = none) (id : SampleId) (outcome : Except IoFault Bytes) :
    (download (rule.fileName id) outcome).status ≠ 400 ∧
      ∀ content, outcome = .ok content →
        (download (rule.fileName id) outcome).status = 200 ∧ (download (rule.fileName id) outcome).body = content := by
  cases outcome with
  | ok content =>
      rw [download, attachment, if_pos (file_name_header faultless id)]
      exact ⟨show 200 ≠ 400 by decide, fun same equal => ⟨rfl, Except.ok.inj equal⟩⟩
  | error fault =>
      refine ⟨?_, fun content impossible => by cases impossible⟩
      rw [download_error]
      split <;> decide

end Faultless

end Site

section Served

variable {entries : List SampleEntry} {rule : ArtifactRule} {registry : Registry}
variable {basePath : String} {deployment : Deployment}

theorem home_answer (built : Registry.ofEntries entries rule = .ok registry) (deployment : Deployment)
    (publicDirectory : String) :
    (⟨registry, deployment, publicDirectory⟩ : Site).home =
      .html 200 (plainPage registry deployment registry.first none).render := by
  have fresh := Selection.start_tracks registry deployment
  rw [Site.home, Site.selection, Selection.page_plain built _ fresh.sameRegistry fresh.coherent none]
  rfl

theorem sample_answer (built : Registry.ofEntries entries rule = .ok registry) (deployment : Deployment)
    (publicDirectory : String) (entry : SampleEntry) (member : entry ∈ registry.entries) :
    (⟨registry, deployment, publicDirectory⟩ : Site).sample entry.id.text =
      .html 200 (plainPage registry deployment entry none).render := by
  have fresh := Selection.start_tracks registry deployment
  obtain ⟨outcome, moved, selected, owned, sited, shown, coherent⟩ :=
    Selection.select_entry built _ fresh.sameRegistry fresh.coherent entry member
  rw [Site.sample, Site.selection, selected]
  dsimp only
  rw [Selection.page_plain built moved owned coherent none, sited, shown]
  rfl

theorem asked_below (accepted : Deployment.ofBasePath basePath = .ok deployment)
    (rooted : deployment.basePath.toList.head? = some '/') (rest : String)
    (marks : ∀ c ∈ rest.toList, c ≠ '?' ∧ c ≠ '#') :
    ({ uri := deployment.basePath ++ rest } : Request).path? = some (deployment.basePath ++ rest) := by
  apply asked_plain
  · rw [String.toList_append, List.head?_append, rooted]
    rfl
  · intro c member
    rw [String.toList_append, List.mem_append] at member
    rcases member with inside | behind
    · exact Deployment.base_path_marks accepted c inside
    · exact marks c behind

theorem asked_bare (accepted : Deployment.ofBasePath basePath = .ok deployment)
    (rooted : deployment.basePath.toList.head? = some '/') (inner : deployment.isRoot = false) :
    ({ uri := Text.trimTrailingSlashes deployment.basePath } : Request).path? =
      some (Text.trimTrailingSlashes deployment.basePath) := by
  have slash := Deployment.base_path_slash accepted
  have marks := Deployment.base_path_marks accepted
  have notRoot : deployment.basePath ≠ "/" := by
    intro same
    rw [Deployment.isRoot, same] at inner
    cases inner
  generalize Text.trimTrailingSlashes deployment.basePath = bare at slash
  rw [slash] at rooted marks notRoot
  apply asked_plain
  · cases text : bare.toList with
    | nil =>
        rw [String.toList_eq_nil_iff.mp text] at notRoot
        exact absurd rfl notRoot
    | cons c rest => simpa [text] using rooted
  · intro c member
    exact marks c (by rw [String.toList_append]; exact List.mem_append_left _ member)

theorem page_path_head (id : SampleId) : id.pagePath.toList.head? ≠ some '/' := by
  rw [SampleId.pagePath, String.append_assoc, String.toList_append, List.head?_append]
  simp

theorem page_path_marks (id : SampleId) (c : Char) (member : c ∈ id.pagePath.toList) : c ≠ '?' ∧ c ≠ '#' := by
  have plain := BasePath.segment_plain c (id.page_path_members c member)
  exact ⟨plain.query, plain.fragment⟩

theorem relative_path_marks (faultless : rule.fault? = none) (id : SampleId) (c : Char)
    (member : c ∈ (rule.relativePath id).toList) : c ≠ '?' ∧ c ≠ '#' := by
  have plain := BasePath.segment_plain c (ArtifactRule.relative_path_members faultless id c member)
  exact ⟨plain.query, plain.fragment⟩

theorem artifact_file (faultless : registry.rule.fault? = none) (deployment : Deployment) (publicDirectory : String)
    (id : SampleId) :
    (⟨registry, deployment, publicDirectory⟩ : Site).artifactFile (registry.rule.fileName id) =
      join publicDirectory (registry.rule.relativePath id) := by
  have plainName : (registry.rule.fileName id).toList.head? ≠ some '/' := by
    intro slash
    exact ArtifactRule.file_name_avoids faultless id '/' (by decide) (List.mem_of_mem_head? slash)
  rw [Site.artifactFile, FileTree.Path.join_join _ _ _ registry.rule.folder_head plainName,
    FileTree.Path.join_plain _ _ (ArtifactRule.relative_path_head faultless id), ArtifactRule.relative_path_eq,
    ArtifactRule.folder_opened, String.append_assoc]

theorem artifact_answer (faultless : registry.rule.fault? = none) (deployment : Deployment) (publicDirectory : String)
    (tree : FileTree) (id : SampleId) :
    (⟨registry, deployment, publicDirectory⟩ : Site).artifact tree (registry.rule.fileName id) =
      Site.download (registry.rule.fileName id)
        (tree.read (join publicDirectory (registry.rule.relativePath id))) := by
  rw [Site.artifact, Site.file_name_served faultless id, artifact_file faultless deployment publicDirectory id]
  exact if_neg (by decide)

theorem page_reached (accepted : Deployment.ofBasePath basePath = .ok deployment) (registry : Registry) (id : SampleId) :
    Reaches registry deployment (deployment.resolve id.pagePath) .sample id.text := by
  rw [Deployment.resolve_append accepted id.pagePath (page_path_head id), SampleId.pagePath, ← String.append_assoc,
    ← String.append_assoc]
  exact .sampleSlash id.text (id.avoids '/' (by decide))

theorem file_reached (accepted : Deployment.ofBasePath basePath = .ok deployment)
    (faultless : registry.rule.fault? = none) (id : SampleId) :
    Reaches registry deployment (deployment.resolve (registry.rule.relativePath id)) .artifact
      (registry.rule.fileName id) := by
  have name : registry.rule.fileName id ≠ "" ∧ '/' ∉ (registry.rule.fileName id).toList := by
    have served := (Site.is_file_name_iff _).mp (Site.file_name_served faultless id)
    exact ⟨served.1, served.2.2.1⟩
  rw [Deployment.resolve_append accepted _ (ArtifactRule.relative_path_head faultless id),
    ArtifactRule.relative_path_eq, ← String.append_assoc]
  refine .artifact (registry.rule.fileName id) name.2 name.1 ?_
  intro same
  rw [String.append_assoc] at same
  have dotless : '.' ∉ (registry.rule.folderHead ++ registry.rule.fileName id).toList := by
    rw [health_below_root accepted _ same.symm]
    decide
  apply dotless
  rw [String.toList_append, ArtifactRule.file_name_list]
  exact List.mem_append_right _ (List.mem_append_right _ List.mem_cons_self)

theorem page_served (built : Registry.ofEntries entries rule = .ok registry)
    (free : ensureFolderFree registry = .ok ()) (accepted : Deployment.ofBasePath basePath = .ok deployment)
    (notHealth : deployment.basePath ≠ "/healthz/") (publicDirectory : String) (tree : FileTree)
    (entry : SampleEntry) (member : entry ∈ registry.entries) (path : String)
    (asked : ({ uri := path } : Request).path? = some path)
    (reaches : Reaches registry deployment path .sample entry.id.text) :
    Serves ⟨registry, deployment, publicDirectory⟩ (Router.routes registry deployment) tree path .sample entry.id.text
      (.html 200 (plainPage registry deployment entry none).render) := by
  have routed := (Router.dispatch_iff accepted notHealth registry free path .sample entry.id.text).mpr reaches
  have decoded := Text.Percent.decode_plain entry.id.text (entry.id.avoids '%' (by decide))
  refine ⟨routed, decoded, ?_⟩
  rw [← sample_answer built deployment publicDirectory entry member]
  have gets := gets_dispatched ⟨registry, deployment, publicDirectory⟩ _ tree path .sample entry.id.text asked routed
  rwa [Site.answer, Site.withSegment, decoded] at gets

theorem home_gets (built : Registry.ofEntries entries rule = .ok registry)
    (free : ensureFolderFree registry = .ok ()) (accepted : Deployment.ofBasePath basePath = .ok deployment)
    (notHealth : deployment.basePath ≠ "/healthz/") (publicDirectory : String) (tree : FileTree) (path : String)
    (asked : ({ uri := path } : Request).path? = some path) (reaches : Reaches registry deployment path .home "") :
    Gets ⟨registry, deployment, publicDirectory⟩ (Router.routes registry deployment) tree path
      (.html 200 (plainPage registry deployment registry.first none).render) := by
  have routed := (Router.dispatch_iff accepted notHealth registry free path .home "").mpr reaches
  have gets := gets_dispatched ⟨registry, deployment, publicDirectory⟩ _ tree path .home "" asked routed
  rwa [Site.answer, home_answer built deployment publicDirectory] at gets

theorem file_served (built : Registry.ofEntries entries rule = .ok registry)
    (free : ensureFolderFree registry = .ok ()) (accepted : Deployment.ofBasePath basePath = .ok deployment)
    (rooted : deployment.basePath.toList.head? = some '/') (notHealth : deployment.basePath ≠ "/healthz/")
    (publicDirectory : String) (tree : FileTree) (id : SampleId) :
    Serves ⟨registry, deployment, publicDirectory⟩ (Router.routes registry deployment) tree
      (deployment.resolve (registry.rule.relativePath id)) .artifact (registry.rule.fileName id)
      (Site.download (registry.rule.fileName id)
        (tree.read (join publicDirectory (registry.rule.relativePath id)))) := by
  have faultless := (Registry.of_entries_rule built).2.2
  have routed := (Router.dispatch_iff accepted notHealth registry free _ .artifact _).mpr
    (file_reached accepted faultless id)
  have decoded := Text.Percent.decode_plain (registry.rule.fileName id)
    (ArtifactRule.file_name_avoids faultless id '%' (by decide))
  have asked := asked_below accepted rooted _ (relative_path_marks faultless id)
  rw [← Deployment.resolve_append accepted _ (ArtifactRule.relative_path_head faultless id)] at asked
  refine ⟨routed, decoded, ?_⟩
  rw [← artifact_answer faultless deployment publicDirectory tree id]
  have gets := gets_dispatched ⟨registry, deployment, publicDirectory⟩ _ tree _ .artifact _ asked routed
  rwa [Site.answer, Site.withSegment, decoded] at gets

theorem links_are_routes (built : Registry.ofEntries entries rule = .ok registry)
    (free : ensureFolderFree registry = .ok ()) (accepted : Deployment.ofBasePath basePath = .ok deployment)
    (rooted : deployment.basePath.toList.head? = some '/') (notHealth : deployment.basePath ≠ "/healthz/")
    (publicDirectory : String) (tree : FileTree) (steps : List Selection.Step) :
    ∃ router, Router.build registry deployment = .ok router ∧
      let site : Site := ⟨registry, deployment, publicDirectory⟩
      let selection := (Selection.start registry deployment).after steps
      selection.activeEntry ∈ registry.entries ∧
      selection.nav = plainNav registry deployment selection.activeEntry ∧
      selection.view.1 = View.ofEntry registry deployment selection.activeEntry ∧
      ∀ entry ∈ registry.entries,
        let label := registry.downloadLabel entry
        let answer := Site.download label (tree.read (join publicDirectory (registry.artifactPath entry)))
        Serves site router tree (deployment.resolve entry.id.pagePath) .sample entry.id.text
          (.html 200 (plainPage registry deployment entry none).render) ∧
        Serves site router tree (View.ofEntry registry deployment entry).downloadHref .artifact label answer ∧
        answer.status ≠ 400 ∧
        ∀ content, tree.read (join publicDirectory (registry.artifactPath entry)) = .ok content →
          answer.status = 200 ∧ answer.body = content := by
  have tracks := Selection.after_tracks built deployment steps
  have faultless := (Registry.of_entries_rule built).2.2
  refine ⟨_, Router.build_ok accepted rooted notHealth registry free, ?_, ?_, ?_, ?_⟩
  · have member := Selection.active_entry_mem ((Selection.start registry deployment).after steps)
    rwa [tracks.sameRegistry] at member
  · exact Selection.nav_tracks built deployment steps _ tracks
  · exact Selection.viewed_tracks registry deployment steps _ tracks
  · intro entry member
    have plain : entry.id.pagePath.toList.head? ≠ some '/' := page_path_head entry.id
    have asked := asked_below accepted rooted entry.id.pagePath (page_path_marks entry.id)
    rw [← Deployment.resolve_append accepted entry.id.pagePath plain] at asked
    obtain ⟨allowed, whole⟩ := Site.download_file faultless entry.id
      (tree.read (join publicDirectory (registry.artifactPath entry)))
    refine ⟨?_, ?_, allowed, whole⟩
    · exact page_served built free accepted notHealth publicDirectory tree entry member _ asked
        (page_reached accepted registry entry.id)
    · exact file_served built free accepted rooted notHealth publicDirectory tree entry.id

end Served

theorem links_are_routes_project : ∃ registry, Registry.ofEntries Catalog.builtinSamples {} = .ok registry ∧
    ensureFolderFree registry = .ok () ∧ Deployment.ofBasePath "/delphi-pascal-llvm-compiler" = .ok ⟨BasePath.project⟩ ∧
    ∃ router, Router.build registry ⟨BasePath.project⟩ = .ok router ∧
      ∃ entry ∈ registry.entries, entry.id.text = "test1" ∧
        Serves ⟨registry, ⟨BasePath.project⟩, "public"⟩ router FileTree.empty
          "/delphi-pascal-llvm-compiler/samples/test1/" .sample "test1"
          (.html 200 (plainPage registry ⟨BasePath.project⟩ entry none).render) ∧
        Serves ⟨registry, ⟨BasePath.project⟩, "public"⟩ router FileTree.empty
          "/delphi-pascal-llvm-compiler/artifacts/test1.ll" .artifact "test1.ll"
          (Site.download "test1.ll" (FileTree.empty.read "public/artifacts/test1.ll")) := by
  obtain ⟨registry, built⟩ := Registry.builtin_ok
  obtain ⟨listed, ruled, _⟩ := Registry.of_entries_rule built
  have free := default_folder_free registry ruled
  have accepted : Deployment.ofBasePath "/delphi-pascal-llvm-compiler" = .ok ⟨BasePath.project⟩ := by decide
  obtain ⟨entry, inside, named⟩ : ∃ entry ∈ Catalog.builtinSamples, entry.id.text = "test1" := by decide
  rw [← listed] at inside
  obtain ⟨router, routed, _, _, _, served⟩ := links_are_routes built free accepted (by decide) (by decide) "public"
    FileTree.empty [.select "test3", .page none]
  obtain ⟨page, file, _⟩ := served entry inside
  have label : registry.downloadLabel entry = "test1.ll" := by
    rw [Registry.downloadLabel, ruled, ArtifactRule.fileName, named]
    decide
  have relative : registry.artifactPath entry = "artifacts/test1.ll" := by
    rw [Registry.artifactPath, ruled, ArtifactRule.relativePath, ArtifactRule.fileName, named]
    decide
  rw [SampleId.pagePath, named] at page
  rw [View.ofEntry, label, relative] at file
  refine ⟨registry, built, free, accepted, router, routed, entry, inside, named, ?_, ?_⟩
  · rwa [show (⟨BasePath.project⟩ : Deployment).resolve ("samples/" ++ "test1" ++ "/") =
      "/delphi-pascal-llvm-compiler/samples/test1/" by decide] at page
  · rwa [show (⟨BasePath.project⟩ : Deployment).resolve "artifacts/test1.ll" =
      "/delphi-pascal-llvm-compiler/artifacts/test1.ll" by decide,
      show join "public" "artifacts/test1.ll" = "public/artifacts/test1.ll" by decide] at file

end Server

end Showcase
