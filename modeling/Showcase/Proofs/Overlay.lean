import Showcase.Proofs.Copying
import Showcase.Proofs.Sources
/-!
The tree that an export leaves: the files of the public directory lie over the pages, and the pages over what was in the
output directory before. Everything else is as it was.
-/
set_option autoImplicit false

namespace Showcase.Export

open FileTree
open FileTree.Path (join)

inductive PageAt (registry : Registry) (deployment : Deployment) : List Name → String → Prop where
  | index : PageAt registry deployment [indexName] (plainPage registry deployment registry.first none).render
  | sample (entry : SampleEntry) (member : entry ∈ registry.entries) :
      PageAt registry deployment (samplePage entry.id) (plainPage registry deployment entry none).render

def Supplies (tree : FileTree) (source : String) (names : List Name) (node : Node) : Prop :=
  tree.isDirectory source = true ∧ tree.get? (names.reverse ++ tree.target source) = some node

def PageParent (registry : Registry) (deployment : Deployment) (site place : Location) : Prop :=
  ∃ names html inner, PageAt registry deployment names html ∧ inner <+: names.dropLast ∧ place = inner.reverse ++ site

/-- All that an export leaves, against the tree in which its output directory was made. -/
structure Overlaid (registry : Registry) (deployment : Deployment) (source output : String) (made final : FileTree)
    (report : Report) : Prop where
  outside : ∀ place, ¬ made.target output <:+ place → final.get? place = made.get? place
  assets : ∀ names file, Supplies made source names (.file file) →
    final.get? (names.reverse ++ made.target output) = some (.file file)
  pages : ∀ names html, PageAt registry deployment names html →
    (∀ file, ¬ Supplies made source names (.file file)) →
    final.get? (names.reverse ++ made.target output) = some (.file (Text.utf8 html))
  others : ∀ names, (∀ file, ¬ Supplies made source names (.file file)) →
    (∀ html, ¬ PageAt registry deployment names html) → ∀ file,
    final.get? (names.reverse ++ made.target output) = some (.file file) ↔
      made.get? (names.reverse ++ made.target output) = some (.file file)
  directories : ∀ place, final.get? place = some .directory ↔
    made.get? place = some .directory ∨ PageParent registry deployment (made.target output) place ∨
      ∃ names, place = names.reverse ++ made.target output ∧ Supplies made source names .directory
  linkless : LinkFree final
  listed : report.pages =
    join output "index.html" :: registry.entries.map fun entry => join output (entry.id.pagePath ++ "index.html")
  distinct : report.pages.Nodup
  counted : report.copiedAssets =
    if made.isDirectory source then (made.filesWithin (made.target source)).card else 0

section Pages

variable {output : String} {made paged : FileTree}

theorem page_at_inner {registry : Registry} {deployment : Deployment} {names : List Name} {html : String}
    (page : PageAt registry deployment names html) : names ≠ [] := by
  cases page with
  | index => simp
  | sample entry member => simp [samplePage]

theorem output_visited (tree : FileTree) (free : LinkFree made) (html : String)
    (ensured : (ensureDirectories output).run tree = (.ok (), made))
    (index : (placePage (indexPath output) html).run made = (.ok (), paged)) (location : Location)
    (visited : Visits made output location) : made.get? location = some .directory := by
  -- Without an output directory the pages are placed in the working directory, which then has to be there.
  by_cases empty : output = ""
  · subst empty
    obtain ⟨steps, early, rfl⟩ := visited
    rw [show (Route.ofText "").steps = [] by decide] at early
    rw [List.prefix_nil.mp early]
    have above : Path.parent? (indexPath "") = some "" := by decide
    unfold placePage at index
    rw [above] at index
    obtain ⟨_, middle, nothing, writing⟩ := run_bind_ok _ _ made paged () index
    have same : (ensureDirectories "").run made = (.ok (), made) := rfl
    have unchanged := during_ok _ _ made middle _ nothing
    rw [same] at unchanged
    cases unchanged
    obtain ⟨spot, resolved⟩ := store_resolved made paged _ _ (during_ok _ _ made paged () writing)
    have walked := ((resolve_ok_iff made true _ spot).mp resolved).2
    rw [index_path_below, below_steps, start, below_absolute] at walked
    exact (walk_first made true linkLimit _ _ _ _ spot walked).1
  · exact visits_directory made free output (ensure_directories_ok tree made output empty ensured) location visited

end Pages

section Layers

variable (registry : Registry) (deployment : Deployment) (source output : String)

def PagesOver (made placed : FileTree) : Prop :=
  Fills (fun place => made.get? place = some .directory ∨ PageParent registry deployment (made.target output) place)
    (fun place => ∃ names html, PageAt registry deployment names html ∧ place = names.reverse ++ made.target output)
    made placed

def AssetsOver (made placed final : FileTree) : Prop :=
  Fills (fun place => placed.get? place = some .directory ∨
      ∃ names, place = names.reverse ++ made.target output ∧ Supplies made source names .directory)
    (fun place => ∃ names file, place = names.reverse ++ made.target output ∧
      Supplies made source names (.file file))
    placed final

structure Layers (made placed final : FileTree) : Prop where
  pages : PagesOver registry deployment output made placed
  shown : ∀ names html, PageAt registry deployment names html →
    placed.get? (names.reverse ++ made.target output) = some (.file (Text.utf8 html))
  assets : AssetsOver source output made placed final
  arrived : ∀ names node, Supplies made source names node →
    final.get? (names.reverse ++ made.target output) = some node

variable {source output} {made paged placed final : FileTree} (free : LinkFree made)
variable (visited : ∀ location, Visits made output location → made.get? location = some .directory)

include free visited

theorem place_page_over (names : List Name) (shown : ∃ html, PageAt registry deployment names html) (html : String) :
    Preserves (PagesOver registry deployment output made) (placePage (below output names) html) := by
  obtain ⟨text, page⟩ := shown
  refine place_page_preserves _ _ html (fun parent above => ensure_directories_fills _ _ made free parent ?_)
    (store_fills _ _ made free _ _ ⟨names, text, page, target_below made output names⟩)
  intro location passed
  rcases visits_below made output names.dropLast location
    (visits_parent_below made output parent names (page_at_inner page) above location passed) with
    way | ⟨inner, early, here⟩
  · exact .inl (visited location way)
  · exact .inr ⟨names, text, inner, page, early, here⟩

theorem pages_over (html : String) (selection : Selection) (paths : List String)
    (index : (placePage (indexPath output) html).run made = (.ok (), paged))
    (samples : (placeSamples output selection registry.entries).run paged = (.ok paths, placed)) :
    PagesOver registry deployment output made placed := by
  have first := place_page_over registry deployment free visited [indexName] ⟨_, .index⟩ html made (fills_refl made)
  rw [← index_path_below, index] at first
  have later := place_samples_preserves (PagesOver registry deployment output made) output registry.entries ?_ selection
    paged first
  · rw [samples] at later
    exact later
  · intro entry member text
    rw [sample_path_below]
    exact place_page_over registry deployment free visited _ ⟨_, .sample entry member⟩ text

omit free visited in
theorem pages_outside (pages : PagesOver registry deployment output made placed) (place : Location)
    (outside : ¬ made.target output <:+ place) : placed.get? place = made.get? place := by
  refine fills_same pages place ?_ ?_
  · rintro ⟨names, _, _, rfl⟩
    exact outside (List.suffix_append _ _)
  · rintro (held | ⟨_, _, inner, _, _, rfl⟩)
    · exact held
    · exact absurd (List.suffix_append _ _) outside

theorem placed_apart (pages : PagesOver registry deployment output made placed)
    (directory : made.isDirectory source = true)
    (outside : ∀ rest, ¬ made.target output <:+ rest ++ made.target source) :
    Apart placed source (join output "") ∧ placed.get? (placed.target source) = some .directory := by
  have sourceAt : placed.target source = made.target source := target_congr placed made pages.current source
  refine ⟨⟨grows_link_free _ made placed pages.toGrows free, ?_, ?_⟩, ?_⟩
  · intro location passed
    have way := visits_congr placed made pages.current _ _ (visits_join_empty placed output location passed)
    exact pages.directories location (visited location way)
  · rw [sourceAt, target_join_empty, target_congr placed made pages.current]
    exact outside
  · rw [sourceAt]
    exact pages.directories _ (directory_target free source directory)

theorem assets_over (pages : PagesOver registry deployment output made placed)
    (directory : made.isDirectory source = true)
    (outside : ∀ rest, ¬ made.target output <:+ rest ++ made.target source) (count : Nat)
    (copied : (copyBelow source depthLimit [] source (join output "")).run placed = (.ok count, final)) :
    AssetsOver source output made placed final ∧
      (∀ names node, Supplies made source names node →
        final.get? (names.reverse ++ made.target output) = some node) ∧
      count = (made.filesWithin (made.target source)).card := by
  have sourceAt : placed.target source = made.target source := target_congr placed made pages.current source
  have targetAt : placed.target (join output "") = made.target output := by
    rw [target_join_empty, target_congr placed made pages.current]
  have same : ∀ rest, placed.get? (rest ++ made.target source) = made.get? (rest ++ made.target source) :=
    fun rest => pages_outside registry deployment pages _ (outside rest)
  obtain ⟨apart, known⟩ := placed_apart registry deployment free visited pages directory outside
  obtain ⟨copying, complete, counted⟩ := copy_below_copies apart source depthLimit [] [] known placed final count
    (fills_refl placed) copied
  refine ⟨fills_mono ?_ ?_ copying.fills, ?_, ?_⟩
  · rintro place (held | ⟨rest, rfl, held⟩)
    · exact .inl held
    · rw [sourceAt, same] at held
      exact .inr ⟨rest.reverse, by rw [List.reverse_reverse, targetAt], directory, by rwa [List.reverse_reverse]⟩
  · rintro place ⟨rest, file, rfl, held⟩
    rw [sourceAt, same] at held
    exact ⟨rest.reverse, file, by rw [List.reverse_reverse, targetAt], directory, by rwa [List.reverse_reverse]⟩
  · rintro names node ⟨_, held⟩
    obtain ⟨other, there, here⟩ := complete names.reverse List.nil_suffix (by rw [sourceAt, same, held]; simp)
    rw [sourceAt, same, held] at there
    cases there
    rwa [targetAt] at here
  · rw [counted, sourceAt, List.reverse_nil, List.nil_append, files_within_congr placed made _ same]

end Layers

theorem place_samples_paths (directory : String) (listed : List SampleEntry) (selection : Selection)
    (tree after : FileTree) (paths : List String)
    (placed : (placeSamples directory selection listed).run tree = (.ok paths, after)) :
    paths = listed.map fun entry => samplePath directory entry.id := by
  induction listed generalizing selection tree paths with
  | nil =>
      cases placed
      rfl
  | cons entry rest ih =>
      obtain ⟨_, moved, middle, others, _, _, tail, rfl⟩ :=
        place_samples_parts directory selection entry rest tree after paths placed
      rw [ih _ middle others tail, List.map_cons]

section Run

variable {entries : List SampleEntry} {rule : ArtifactRule} {registry : Registry} {deployment : Deployment}
variable {source output : String} {tree made paged placed final : FileTree} {report : Report}

theorem pages_distinct (built : Registry.ofEntries entries rule = .ok registry) (tree : FileTree) (output : String) :
    (indexPath output :: registry.entries.map fun entry => samplePath output entry.id).Nodup := by
  refine List.nodup_cons.mpr ⟨?_, ?_⟩
  · intro member
    obtain ⟨entry, _, same⟩ := List.mem_map.mp member
    exact index_target_apart tree output entry.id (congrArg tree.target same.symm)
  · have injective : Function.Injective (samplePath output) :=
      fun a b same => sample_target_injective tree output a b (congrArg tree.target same)
    have distinct := (Registry.ids_distinct built).map injective
    rwa [List.map_map] at distinct

theorem ensured_link_free (free : LinkFree tree) (prepared : (ensureDirectories output).run tree = (.ok (), made)) :
    LinkFree made := by
  have grown := ensure_directories_growing output tree
  rw [prepared] at grown
  exact grows_link_free _ tree made grown free

theorem run_placed (free : LinkFree tree) (prepared : (ensureDirectories output).run tree = (.ok (), made))
    (exported : (run registry deployment source output).run tree = (.ok report, final)) :
    ∃ paged placed paths count, Stages registry deployment source output made made paged placed final ∧
      (∀ location, Visits made output location → made.get? location = some .directory) ∧
      PagesOver registry deployment output made placed ∧
      (placeSamples output ((Selection.start registry deployment).page none).2 registry.entries).run paged =
        (.ok paths, placed) ∧
      (copyAssets source output).run placed = (.ok count, final) ∧ report = ⟨indexPath output :: paths, count⟩ := by
  obtain ⟨other, paged, placed, paths, count, ensured, checked, index, samples, copied, same⟩ :=
    run_stages registry deployment source output tree final report exported
  rw [prepared] at ensured
  cases ensured
  have madeFree := ensured_link_free free prepared
  have visited := output_visited tree madeFree _ prepared index
  have pages := pages_over registry deployment madeFree visited _ _ paths index samples
  have stages : Stages registry deployment source output made made paged placed final :=
    ⟨grows_refl _ made, (check_overlap_ok made made source output checked).2, index, ⟨paths, samples⟩,
      (copy_assets_ok placed final source output count copied).imp (fun present => ⟨present.1, count, present.2⟩)
        (fun missing => ⟨missing.1, missing.2.1⟩)⟩
  exact ⟨paged, placed, paths, count, stages, visited, pages, samples, copied, same⟩

theorem pages_open (built : Registry.ofEntries entries rule = .ok registry) (free : LinkFree made)
    (stages : Stages registry deployment source output made made paged placed final) (names : List Name) (html : String)
    (page : PageAt registry deployment names html) : placed.openFile (below output names) = .ok (Text.utf8 html) := by
  obtain ⟨_, home, opens⟩ := pages_placed built free stages
  cases page with
  | index => exact home
  | sample entry member =>
      rw [← sample_path_below]
      exact opens entry member

theorem placed_layers (built : Registry.ofEntries entries rule = .ok registry) (free : LinkFree made)
    (stages : Stages registry deployment source output made made paged placed final)
    (visited : ∀ location, Visits made output location → made.get? location = some .directory)
    (pages : PagesOver registry deployment output made placed) (count : Nat)
    (copied : (copyAssets source output).run placed = (.ok count, final))
    (settled : made.isDirectory source = true ∨ final.isDirectory source = false) :
    Layers registry deployment source output made placed final ∧
      count = if made.isDirectory source then (made.filesWithin (made.target source)).card else 0 := by
  have placedFree := grows_link_free _ made placed pages.toGrows free
  have shown : ∀ names html, PageAt registry deployment names html →
      placed.get? (names.reverse ++ made.target output) = some (.file (Text.utf8 html)) := by
    intro names html page
    rw [← target_congr placed made pages.current, ← target_below]
    exact open_target placedFree _ _ (pages_open built free stages names html page)
  rcases copy_assets_ok placed final source output count copied with ⟨present, copied⟩ | ⟨missing, rfl, rfl⟩
  · have directory : made.isDirectory source = true := by
      refine settled.resolve_right (fun gone => ?_)
      have grown := copy_below_grows (fun _ => True) placed placedFree source (join output "") (fun _ _ _ _ _ _ => trivial)
        source depthLimit [] placed (grows_refl _ placed)
      rw [copied] at grown
      rw [is_directory_grows placedFree _ grown source present] at gone
      cases gone
    obtain ⟨laid, arrived, counted⟩ := assets_over registry deployment free visited pages directory
      (stages_apart free stages directory) count copied
    exact ⟨⟨pages, shown, laid, arrived⟩, by rw [if_pos directory, counted]⟩
  · have absent : ¬ made.isDirectory source = true := by
      intro directory
      rw [is_directory_grows free _ pages.toGrows source directory] at missing
      cases missing
    exact ⟨⟨pages, shown, fills_refl final, fun _ _ supplied => absurd supplied.1 absent⟩, by rw [if_neg absent]⟩

theorem run_layers (built : Registry.ofEntries entries rule = .ok registry) (free : LinkFree tree)
    (prepared : (ensureDirectories output).run tree = (.ok (), made))
    (exported : (run registry deployment source output).run tree = (.ok report, final))
    (settled : made.isDirectory source = true ∨ final.isDirectory source = false) :
    ∃ placed, Layers registry deployment source output made placed final ∧
      report.pages = (indexPath output :: registry.entries.map fun entry => samplePath output entry.id) ∧
      report.copiedAssets = if made.isDirectory source then (made.filesWithin (made.target source)).card else 0 := by
  obtain ⟨paged, placed, paths, count, stages, visited, pages, samples, copied, rfl⟩ := run_placed free prepared exported
  obtain ⟨layers, counted⟩ :=
    placed_layers built (ensured_link_free free prepared) stages visited pages count copied settled
  refine ⟨placed, layers, ?_, counted⟩
  rw [place_samples_paths output registry.entries _ paged placed paths samples]

section Final

variable (layers : Layers registry deployment source output made placed final)

include layers

theorem layers_grows : Grows (fun _ => True) made final :=
  grows_trans _ made placed final (grows_mono _ _ made placed (fun _ _ => trivial) layers.pages.toGrows)
    (grows_mono _ _ placed final (fun _ _ => trivial) layers.assets.toGrows)

theorem layers_outside (place : Location) (outside : ¬ made.target output <:+ place) :
    final.get? place = made.get? place := by
  rw [← pages_outside registry deployment layers.pages place outside]
  refine fills_same layers.assets place ?_ ?_
  · rintro ⟨names, file, rfl, _⟩
    exact outside (List.suffix_append _ _)
  · rintro (held | ⟨names, rfl, _⟩)
    · exact held
    · exact absurd (List.suffix_append _ _) outside

theorem layers_unsupplied (names : List Name) (unsupplied : ∀ file, ¬ Supplies made source names (.file file))
    (file : File) : final.get? (names.reverse ++ made.target output) = some (.file file) ↔
      placed.get? (names.reverse ++ made.target output) = some (.file file) := by
  refine layers.assets.files _ ?_ file
  rintro ⟨other, given, same, supplied⟩
  rw [← List.reverse_inj.mp (List.append_cancel_right same)] at supplied
  exact unsupplied given supplied

theorem layers_others (names : List Name) (unpaged : ∀ html, ¬ PageAt registry deployment names html) (file : File) :
    placed.get? (names.reverse ++ made.target output) = some (.file file) ↔
      made.get? (names.reverse ++ made.target output) = some (.file file) := by
  refine layers.pages.files _ ?_ file
  rintro ⟨other, html, page, same⟩
  rw [← List.reverse_inj.mp (List.append_cancel_right same)] at page
  exact unpaged html page

theorem layers_directories (place : Location) : final.get? place = some .directory ↔
    made.get? place = some .directory ∨ PageParent registry deployment (made.target output) place ∨
      ∃ names, place = names.reverse ++ made.target output ∧ Supplies made source names .directory := by
  constructor
  · intro held
    have paged : placed.get? place = some .directory →
        made.get? place = some .directory ∨ PageParent registry deployment (made.target output) place := by
      intro there
      rcases layers.pages.fresh place there with before | opened
      · exact .inl before
      · exact opened
    rcases layers.assets.fresh place held with there | there | supplied
    · exact (paged there).imp_right .inl
    · exact (paged there).imp_right .inl
    · exact .inr (.inr supplied)
  · rintro (held | ⟨names, html, inner, page, ⟨more, cut⟩, rfl⟩ | ⟨names, rfl, supplied⟩)
    · exact layers.assets.directories _ (layers.pages.directories _ held)
    · refine layers.assets.directories _ ?_
      have whole := List.dropLast_concat_getLast (page_at_inner page)
      have file := layers.shown names html page
      rw [← whole, ← cut, List.reverse_append, List.reverse_append, List.reverse_singleton, List.append_assoc,
        List.append_assoc] at file
      exact within_directory placed _ _ (List.suffix_append _ _) (parent_directory placed _ _ _ file)
    · exact layers.arrived names .directory supplied

end Final

theorem export_overlays (built : Registry.ofEntries entries rule = .ok registry) (free : LinkFree tree)
    (prepared : (ensureDirectories output).run tree = (.ok (), made))
    (exported : (run registry deployment source output).run tree = (.ok report, final))
    (settled : made.isDirectory source = true ∨ final.isDirectory source = false) :
    Overlaid registry deployment source output made final report := by
  obtain ⟨placed, layers, listed, counted⟩ := run_layers built free prepared exported settled
  have madeFree := ensured_link_free free prepared
  have distinct := pages_distinct built made output
  rw [← listed] at distinct
  refine ⟨layers_outside layers, fun names file => layers.arrived names _, ?_, ?_, layers_directories layers, ?_, ?_,
    distinct, counted⟩
  · intro names html page unsupplied
    exact (layers_unsupplied layers names unsupplied _).mpr (layers.shown names html page)
  · intro names unsupplied unpaged file
    exact (layers_unsupplied layers names unsupplied file).trans (layers_others layers names unpaged file)
  · have placedFree := grows_link_free _ made placed layers.pages.toGrows madeFree
    exact grows_link_free _ placed final layers.assets.toGrows placedFree
  · rw [listed]
    refine congrArg _ (List.map_congr_left fun entry _ => ?_)
    rw [sample_path_below, sample_page_below]

end Run

def stocked : FileTree where
  entries := [([workName], .directory), ([publicName, workName], .directory), ([outputName, workName], .directory),
    ([indexName, publicName, workName], .file { content := [1] }), ([sharedName, publicName, workName], .directory),
    ([noteName, sharedName, publicName, workName], .file { content := [2] }),
    ([noteName, outputName, workName], .file { content := [3] })]
  current := [workName]
  distinct := by decide
  attached := by simp [Attached]

theorem stocked_link_free : LinkFree stocked := by
  intro place target held
  have member := held_entry stocked place _ (fun same => by cases same) held
  simp [stocked] at member

theorem export_overlays_stocked : ∃ registry made final report, Registry.ofEntries [greeting] {} = .ok registry ∧
    (ensureDirectories "dist").run stocked = (.ok (), made) ∧ made.isDirectory "public" = true ∧
    (run registry Deployment.root "public" "dist").run stocked = (.ok report, final) ∧ report.copiedAssets = 2 ∧
    Overlaid registry Deployment.root "public" "dist" made final report := by
  obtain ⟨registry, built⟩ := Registry.of_entries_ok [greeting] {} (by decide) (by decide) (by decide)
  have ensured : ((ensureDirectories "dist").run stocked).1 = .ok () := by decide +kernel
  have present : ((ensureDirectories "dist").run stocked).2.isDirectory "public" = true := by decide +kernel
  have done : ((greetingRun "public" "dist").run stocked).1 =
      .ok ⟨["dist/index.html", "dist/samples/hello/index.html"], 2⟩ := by decide +kernel
  rw [← run_greeting registry built] at done
  exact ⟨registry, _, _, _, built, Prod.ext ensured rfl, present, Prod.ext done rfl, rfl,
    export_overlays built stocked_link_free (Prod.ext ensured rfl) (Prod.ext done rfl) (.inl present)⟩

end Showcase.Export
