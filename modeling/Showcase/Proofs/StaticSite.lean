import Showcase.Proofs.Keeping

set_option autoImplicit false

namespace Showcase.Export

open FileTree
open FileTree.Path (join)

section Stages

variable {entries : List SampleEntry} {rule : ArtifactRule} {registry : Registry} {deployment : Deployment}
variable {source output : String} {tree made paged placed final : FileTree}

theorem index_target_apart (tree : FileTree) (output : String) (id : SampleId) :
    tree.target (indexPath output) ≠ tree.target (samplePath output id) := by
  rw [index_path_below, sample_path_below, target_below, target_below]
  intro same
  have lengths := congrArg List.length same
  simp [samplePage] at lengths

theorem pages_placed (built : Registry.ofEntries entries rule = .ok registry) (free : LinkFree tree)
    (stages : Stages registry deployment source output tree made paged placed final) :
    Grows (tree.target output <:+ ·) tree placed ∧
      placed.openFile (indexPath output) = .ok (Text.utf8 (plainPage registry deployment registry.first none).render) ∧
      ∀ entry ∈ registry.entries, placed.openFile (samplePath output entry.id) =
        .ok (Text.utf8 (plainPage registry deployment entry none).render) := by
  have fresh := Selection.start_tracks registry deployment
  have page := Selection.page_plain built _ fresh.sameRegistry fresh.coherent none
  have madeFree := grows_link_free _ tree made stages.prepared free
  have index := stages.index
  obtain ⟨indexed, opened⟩ := place_page_ok made paged madeFree _ _ index
  rw [page] at opened
  have pagedFree := grows_link_free _ made paged indexed madeFree
  obtain ⟨paths, samples⟩ := stages.samples
  obtain ⟨sameRegistry, sameDeployment, coherent⟩ := Selection.page_frame _ fresh.coherent none
  obtain ⟨sampled, opens⟩ := place_samples_ok built deployment output registry.entries (fun _ member => member) _
    sameRegistry sameDeployment coherent paged placed pagedFree paths samples
  refine ⟨?_, ?_, opens⟩
  · have first := target_congr made tree stages.prepared.current
    have second := target_congr paged tree (indexed.current.trans stages.prepared.current)
    refine grows_trans _ tree made placed (grows_untouched _ tree made stages.prepared)
      (grows_trans _ made paged placed (grows_mono _ _ made paged ?_ indexed)
        (grows_mono _ _ paged placed ?_ sampled))
    · intro place here
      rw [here, first, index_path_below, target_below]
      exact List.suffix_append _ _
    · rintro place ⟨entry, _, here⟩
      rw [here, second, sample_path_below, target_below]
      exact List.suffix_append _ _
  · refine open_grows pagedFree _ sampled _ _ ?_ opened
    rintro ⟨entry, _, same⟩
    exact index_target_apart paged output entry.id same

theorem open_earlier (written : Location → Prop) (before after : FileTree) (free : LinkFree before)
    (grows : Grows written before after) (source : String) (directory : before.isDirectory source = true)
    (names : List Name) (inner : names ≠ []) (file : File)
    (untouched : ¬ written (names.reverse ++ before.target source))
    (opened : after.openFile (below source names) = .ok file) : before.openFile (below source names) = .ok file := by
  have afterFree := grows_link_free _ before after grows free
  have afterDirectory := is_directory_grows free _ grows source directory
  obtain ⟨spelled, held⟩ := (open_below_iff after afterFree source afterDirectory names inner file).mp opened
  rw [target_congr after before grows.current] at held
  exact (open_below_iff before free source directory names inner file).mpr
    ⟨spelled, (grows.files _ untouched file).mp held⟩

theorem stages_apart (free : LinkFree tree)
    (stages : Stages registry deployment source output tree made paged placed final)
    (directory : tree.isDirectory source = true) (rest : Location) :
    ¬ tree.target output <:+ rest ++ tree.target source := by
  have madeFree := grows_link_free _ tree made stages.prepared free
  obtain ⟨a, b, sourceAt, outputAt, separate⟩ := stages.apart (is_directory_grows free _ stages.prepared source directory)
  have sourcePlace := locate_target madeFree source a sourceAt
  have outputPlace := locate_target madeFree output b outputAt
  rw [target_congr made tree stages.prepared.current] at sourcePlace outputPlace
  rw [sourcePlace, outputPlace] at separate
  exact below_apart _ _ _ separate (List.suffix_append rest _)

theorem assets_copied (free : LinkFree placed) (directory : placed.isDirectory source = true)
    (outside : ∀ rest, ¬ placed.target output <:+ rest ++ placed.target source) (count : Nat)
    (copied : (copyBelow source depthLimit [] source (join output "")).run placed = (.ok count, final)) :
    Grows (fun place => ∃ names file, place = names.reverse ++ placed.target output ∧
      placed.openFile (below source names) = .ok file) placed final := by
  have grown := copy_below_grows (fun place => ∃ names file, place = names.reverse ++ placed.target output ∧
    placed.openFile (below source names) = .ok file) placed free source (join output "") ?_ source depthLimit [] placed
    (grows_refl _ placed)
  · rw [copied] at grown
    exact grown
  intro later names file grows inner opened
  refine ⟨names, file, by rw [target_join_empty], ?_⟩
  refine open_earlier _ placed later free grows source directory names inner file ?_ opened
  rintro ⟨others, _, same, _⟩
  exact outside names.reverse (same ▸ List.suffix_append _ _)

theorem page_kept (free : LinkFree tree) (stages : Stages registry deployment source output tree made paged placed final)
    (grown : Grows (tree.target output <:+ ·) tree placed) (names : List Name) (inner : names ≠ []) (file : File)
    (opened : placed.openFile (below output names) = .ok file)
    (unshadowed : tree.isDirectory source = true ∧ (∀ other, tree.read (below source names) ≠ .ok other) ∨
      final.isDirectory source = false) :
    final.read (below output names) = .ok file.content := by
  have placedFree := grows_link_free _ tree placed grown free
  have sameTarget := target_congr placed tree grown.current
  rcases unshadowed with ⟨directory, absent⟩ | gone
  · have outside := stages_apart free stages directory
    have placedDirectory := is_directory_grows free _ grown source directory
    rcases stages.assets with ⟨_, count, copied⟩ | ⟨missing, _⟩
    · have copy := assets_copied placedFree placedDirectory (by simpa only [sameTarget] using outside) count copied
      refine open_read final _ file (open_grows placedFree _ copy _ file ?_ opened)
      rintro ⟨others, other, same, hidden⟩
      rw [target_below] at same
      have sameNames : names = others := List.reverse_inj.mp (List.append_cancel_right same)
      subst sameNames
      have earlier := open_earlier _ tree placed free grown source directory names inner other (outside _) hidden
      exact absent other.content (open_read tree _ other earlier)
    · rw [placedDirectory] at missing
      cases missing
  · rcases stages.assets with ⟨present, count, copied⟩ | ⟨_, same⟩
    · have copy := copy_below_grows (fun _ => True) placed placedFree source (join output "") (fun _ _ _ _ _ _ => trivial)
        source depthLimit [] placed (grows_refl _ placed)
      rw [copied] at copy
      rw [is_directory_grows placedFree _ copy source present] at gone
      cases gone
    · rw [same]
      exact open_read placed _ file opened

end Stages

/-- No file of the public directory takes the place of a page. -/
def Unshadowed (tree final : FileTree) (source relative : String) : Prop :=
  tree.isDirectory source = true ∧ (∀ content, tree.read (join source relative) ≠ .ok content) ∨
    final.isDirectory source = false

/-- A file with the text that every request for a path gets. -/
def Mirrors (site : Server.Site) (router : Server.Router) (served final : FileTree) (path file : String) : Prop :=
  ∃ response, Server.Gets site router served path response ∧ response.status = 200 ∧
    final.read file = .ok response.body

section Served

variable {entries : List SampleEntry} {rule : ArtifactRule} {registry : Registry}
variable {basePath : String} {deployment : Deployment}

theorem export_mirrors_server (built : Registry.ofEntries entries rule = .ok registry)
    (free : Server.ensureFolderFree registry = .ok ()) (accepted : Deployment.ofBasePath basePath = .ok deployment)
    (rooted : deployment.basePath.toList.head? = some '/') (notHealth : deployment.basePath ≠ "/healthz/")
    (source output : String) (tree final : FileTree) (linkless : LinkFree tree) (report : Report)
    (exported : (run registry deployment source output).run tree = (.ok report, final))
    (publicDirectory : String) (served : FileTree) :
    ∃ router, Server.Router.build registry deployment = .ok router ∧
      let mirrors := Mirrors ⟨registry, deployment, publicDirectory⟩ router served final
      (Unshadowed tree final source "index.html" →
        mirrors deployment.basePath (join output "index.html") ∧
        (deployment.isRoot = false →
          mirrors (Text.trimTrailingSlashes deployment.basePath) (join output "index.html"))) ∧
      ∀ entry ∈ registry.entries, Unshadowed tree final source (entry.id.pagePath ++ "index.html") →
        mirrors (deployment.basePath ++ "samples/" ++ entry.id.text ++ "/")
          (join output (entry.id.pagePath ++ "index.html")) ∧
        mirrors (deployment.basePath ++ "samples/" ++ entry.id.text)
          (join output (entry.id.pagePath ++ "index.html")) := by
  obtain ⟨made, paged, placed, stages⟩ := run_ok registry deployment source output tree final report exported
  obtain ⟨grown, index, samples⟩ := pages_placed built linkless stages
  refine ⟨_, Server.Router.build_ok accepted rooted notHealth registry free, ?_, ?_⟩
  · intro unshadowed
    have kept := page_kept linkless stages grown [indexName] (by simp) _ index unshadowed
    have home := Server.home_gets built free accepted notHealth publicDirectory served
    refine ⟨⟨_, home _ ?_ .home, rfl, kept⟩, fun inner => ⟨_, home _ ?_ (.bare inner), rfl, kept⟩⟩
    · simpa using Server.asked_below accepted rooted "" (by simp)
    · exact Server.asked_bare accepted rooted inner
  · intro entry member unshadowed
    have placedPage := samples entry member
    rw [sample_path_below] at placedPage
    rw [Unshadowed, ← sample_page_below] at unshadowed
    have kept := page_kept linkless stages grown (samplePage entry.id) (by simp [samplePage]) _ placedPage unshadowed
    rw [sample_page_below] at kept
    have page := Server.page_served built free accepted notHealth publicDirectory served entry member
    have plain := entry.id.avoids '/' (by decide)
    have nonempty : entry.id.text ≠ "" := fun empty => entry.id.nonempty (String.toList_eq_nil_iff.mpr empty)
    have slashed := Server.asked_below accepted rooted entry.id.pagePath (Server.page_path_marks entry.id)
    refine ⟨⟨_, (page _ ?_ (.sampleSlash _ plain)).gets, rfl, kept⟩,
      ⟨_, (page _ ?_ (.sample _ plain nonempty)).gets, rfl, kept⟩⟩
    · simpa only [SampleId.pagePath, ← String.append_assoc] using slashed
    · have marks : ∀ c ∈ ("samples/" ++ entry.id.text).toList, c ∈ entry.id.pagePath.toList := by
        intro c inside
        rw [SampleId.pagePath, String.toList_append]
        exact List.mem_append_left _ inside
      have bare := Server.asked_below accepted rooted ("samples/" ++ entry.id.text)
        (fun c inside => Server.page_path_marks entry.id c (marks c inside))
      rwa [← String.append_assoc] at bare

end Served

def greeting : SampleEntry := ⟨⟨"hello", by decide⟩, "Hello", "begin end.", ""⟩

def workName : Name := ⟨"work", rfl⟩

def outputName : Name := ⟨"dist", by decide⟩

def publicName : Name := ⟨"public", rfl⟩

def prepared : FileTree :=
  { (emptyAt [idName greeting.id, samplesName, outputName, workName]).put [publicName, workName] .directory with
    current := [workName] }

theorem prepared_link_free : LinkFree prepared := by
  have directories : ∀ entry ∈ prepared.entries, entry.2 = .directory := by decide
  intro place target held
  cases directories _ (held_entry prepared place _ (fun same => by cases same) held)

theorem prepared_directory (path : String) (names : List Name) (faultless : pathFault? path = none)
    (steps : (Route.ofText path).steps = names.map Step.name)
    (flat : (Route.ofText path).slash = false)
    (short : ∀ name ∈ names, name.text.utf8ByteSize ≤ nameLimit)
    (held : prepared.get? (names.reverse ++ prepared.start (Route.ofText path)) = some .directory) :
    prepared.isDirectory path = true :=
  (is_directory_iff prepared path).mpr ⟨_, inspect_names prepared path names .directory faultless steps
    flat short (fun _ same => by cases same) held⟩

theorem prepared_output : prepared.isDirectory "dist" = true :=
  prepared_directory "dist" [outputName] (by decide) (by decide) (by decide) (by decide) (by decide)

theorem prepared_public : prepared.isDirectory "public" = true :=
  prepared_directory "public" [publicName] (by decide) (by decide) (by decide) (by decide) (by decide)

theorem prepared_page : prepared.isDirectory "dist/samples/hello" = true :=
  prepared_directory "dist/samples/hello" [outputName, samplesName, idName greeting.id] (by decide) (by decide)
    (by decide) (by decide) (by decide)

theorem prepared_apart : (checkOverlap "public" "dist").run prepared = (.ok (), prepared) := by
  obtain ⟨a, inspected⟩ := (is_directory_iff prepared "public").mp prepared_public
  obtain ⟨b, found⟩ := (is_directory_iff prepared "dist").mp prepared_output
  have sourceAt := ((inspect_ok_iff prepared _ a _).mp inspected).1
  have outputAt := ((inspect_ok_iff prepared _ b _).mp found).1
  refine check_overlap_run prepared _ _ a b sourceAt outputAt ?_
  rw [locate_target prepared_link_free _ a sourceAt, locate_target prepared_link_free _ b outputAt]
  decide

theorem prepared_childless (first second : Node) (name : Name) :
    ((prepared.put (indexName :: prepared.target "dist") first).put
      (indexName :: prepared.target "dist/samples/hello") second).get? (name :: prepared.target "public") = none := by
  have childless : ∀ entry ∈ prepared.entries, entry.1.tail ≠ prepared.target "public" := by decide
  rw [get_put_ne _ _ _ _ (fun same => absurd (List.cons.inj same).2 (by decide)),
    get_put_ne _ _ _ _ (fun same => absurd (List.cons.inj same).2 (by decide))]
  cases held : prepared.get? (name :: prepared.target "public") with
  | none => rfl
  | some node =>
      rw [get?, if_neg (List.cons_ne_nil _ _)] at held
      exact absurd rfl (childless _ (mem_of_lookup held))

theorem prepared_exported (registry : Registry) (built : Registry.ofEntries [greeting] {} = .ok registry)
    (deployment : Deployment) :
    ∃ report final, (run registry deployment "public" "dist").run prepared = (.ok report, final) := by
  have free := prepared_link_free
  have listed := (Registry.of_entries_rule built).1
  have member : greeting ∈ registry.entries := by rw [listed]; exact List.mem_cons_self
  have fresh := Selection.start_tracks registry deployment
  obtain ⟨sameRegistry, _, coherent⟩ := Selection.page_frame _ fresh.coherent none
  obtain ⟨outcome, moved, selected, _⟩ := Selection.select_entry built _ sameRegistry coherent greeting member
  -- the page of the first entry
  have index := place_page_run prepared free "dist" prepared_output indexName
    ((Selection.start registry deployment).page none).1.render (by decide) (by decide) (by decide)
    (.inl (by decide))
  obtain ⟨grown, _⟩ := place_page_ok prepared _ free _ _ index
  have pagedFree := grows_link_free _ _ _ grown free
  have pagedTarget := target_congr _ prepared grown.current
  -- the page of the only entry
  have sample := place_page_run _ pagedFree "dist/samples/hello"
    (is_directory_grows free _ grown _ prepared_page) indexName (moved.page none).1.render (by decide) (by decide)
    (by decide) (.inl (by rw [pagedTarget, get_put_ne _ _ _ _ (by decide)]; decide))
  obtain ⟨more, _⟩ := place_page_ok _ _ pagedFree _ _ sample
  rw [pagedTarget] at sample more
  have samples := place_samples_cons "dist" _ greeting [] outcome moved _ _ _ [] selected sample rfl
  rw [← listed] at samples
  -- the empty public directory
  have placedFree := grows_link_free _ _ _ more pagedFree
  have output := is_directory_grows pagedFree _ more _ (is_directory_grows free _ grown _ prepared_output)
  have source := is_directory_grows pagedFree _ more _ (is_directory_grows free _ grown _ prepared_public)
  have copied := copy_assets_empty _ placedFree "public" "dist" source
    (by rw [target_congr _ prepared (more.current.trans grown.current)]; exact prepared_childless _ _)
    (is_directory_join_empty _ placedFree "dist" output (by decide))
  exact ⟨_, _, run_parts registry deployment "public" "dist" prepared prepared _ _ _ _ 0
    (ensure_existing prepared free "dist" prepared_output) prepared_apart index samples copied⟩

theorem prepared_unshadowed (final : FileTree) (relative : String)
    (vacant : prepared.get? (prepared.target (join "public" relative)) = none) :
    Unshadowed prepared final "public" relative := by
  refine .inl ⟨prepared_public, fun content read => ?_⟩
  obtain ⟨access, opened⟩ := (read_ok_iff prepared _ content).mp read
  rw [open_target prepared_link_free _ _ opened] at vacant
  cases vacant

theorem export_mirrors_server_prepared : ∃ registry report final,
    Registry.ofEntries [greeting] {} = .ok registry ∧ Server.ensureFolderFree registry = .ok () ∧
    Deployment.ofBasePath "/site" = .ok ⟨"/site/"⟩ ∧ LinkFree prepared ∧
    (run registry ⟨"/site/"⟩ "public" "dist").run prepared = (.ok report, final) ∧
    ∃ router, Server.Router.build registry ⟨"/site/"⟩ = .ok router ∧
      let mirrors := Mirrors ⟨registry, ⟨"/site/"⟩, "public"⟩ router prepared final
      mirrors "/site/" "dist/index.html" ∧ mirrors "/site" "dist/index.html" ∧
        mirrors "/site/samples/hello/" "dist/samples/hello/index.html" ∧
        mirrors "/site/samples/hello" "dist/samples/hello/index.html" := by
  obtain ⟨registry, built⟩ := Registry.of_entries_ok [greeting] {} (by decide) (by decide) (by decide)
  obtain ⟨listed, ruled, _⟩ := Registry.of_entries_rule built
  have free := Server.default_folder_free registry ruled
  have accepted : Deployment.ofBasePath "/site" = .ok ⟨"/site/"⟩ := by decide
  obtain ⟨report, final, exported⟩ := prepared_exported registry built ⟨"/site/"⟩
  obtain ⟨router, routed, home, samples⟩ := export_mirrors_server built free accepted (by decide) (by decide) "public"
    "dist" prepared final prepared_link_free report exported "public" prepared
  have member : greeting ∈ registry.entries := by rw [listed]; exact List.mem_cons_self
  obtain ⟨index, bare⟩ := home (prepared_unshadowed final _ (by decide))
  obtain ⟨slashed, plain⟩ := samples greeting member (prepared_unshadowed final _ (by decide))
  exact ⟨registry, report, final, built, free, accepted, prepared_link_free, exported, router, routed, index,
    bare (by decide), slashed, plain⟩

end Showcase.Export
