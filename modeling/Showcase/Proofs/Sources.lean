import Showcase.Proofs.StaticSite

set_option autoImplicit false

namespace Showcase

namespace FileTree

inductive Reachable (tree : FileTree) (home : Location) : Location → Prop where
  | home : Reachable tree home home
  | step (place next : Location) (name : Name) (reached : Reachable tree home place)
      (walked : tree.walk true linkLimit place [.name name] false = .ok (.found next)) : Reachable tree home next

def arrival? (tree : FileTree) (entry : Location × Node) : Option Location :=
  match entry.1 with
  | [] => none
  | name :: parent =>
    match tree.walk true linkLimit parent [.name name] false with
    | .ok (.found next) => some next
    | _ => none

theorem reachable_within (tree : FileTree) (home : Location) (closed : Location → Prop) (start : closed home)
    (kept : ∀ entry ∈ tree.entries, closed entry.1.tail → ∀ next ∈ tree.arrival? entry, closed next) (place : Location)
    (reached : Reachable tree home place) : closed place := by
  induction reached with
  | home => exact start
  | step place next name _ walked ih =>
      have held : ∃ node, (name :: place, node) ∈ tree.entries := by
        cases held : tree.get? (name :: place) with
        | some node =>
            rw [get?, if_neg (List.cons_ne_nil _ _)] at held
            exact ⟨node, mem_of_lookup held⟩
        | none =>
            obtain ⟨_, moved | ⟨other, same, _, inside | file | vacant | ⟨target, linked, _⟩⟩⟩ :=
              walk_first tree true linkLimit place [] false (.name name) _ walked
            · rcases moved.1 with same | same <;> cases same
            · cases same
              rw [held] at inside
              cases inside.1
            · cases same
              obtain ⟨⟨content, file⟩, _⟩ := file
              rw [held] at file
              cases file
            · cases vacant.2.2
            · cases same
              rw [held] at linked
              cases linked
      obtain ⟨node, member⟩ := held
      exact kept _ member ih next (by simp [arrival?, walked])

theorem below_join_empty (base : String) (names : List Name) (inner : names ≠ []) :
    below (Path.join base "") names = below base names := by
  cases names with
  | nil => exact absurd rfl inner
  | cons name rest =>
      have same : Path.join (Path.join base "") name.text = Path.join base name.text := by
        rw [Path.join_join base "" name.text (by decide) name.plain, Path.join_plain base name.text name.plain]
        simp [Path.opened]
      rw [below, List.foldl_cons, same]
      rfl

end FileTree

namespace Export

open FileTree
open FileTree.Path (join)

/-- The page of a lone entry does not ask the index, so one registry without any index stands for all. -/
def lonePage (entry : SampleEntry) (rule : ArtifactRule) (deployment : Deployment) : Page :=
  plainPage ⟨[entry], rule, ∅, by simp⟩ deployment entry none

def loneRun (entry : SampleEntry) (rule : ArtifactRule) (deployment : Deployment) (source output : String) :
    Effect Failure Report := do
  during (creating output) (ensureDirectories output)
  checkOverlap source output
  placePage (indexPath output) (lonePage entry rule deployment).render
  placePage (samplePath output entry.id) (lonePage entry rule deployment).render
  let copied ← copyAssets source output
  return ⟨[indexPath output, samplePath output entry.id], copied⟩

theorem run_lone (entry : SampleEntry) (rule : ArtifactRule) (registry : Registry)
    (built : Registry.ofEntries [entry] rule = .ok registry) (deployment : Deployment) (source output : String) :
    run registry deployment source output = loneRun entry rule deployment source output := by
  have fresh := Selection.start_tracks registry deployment
  have listed := (Registry.of_entries_rule built).1
  have first := Selection.page_plain built _ fresh.sameRegistry fresh.coherent none
  obtain ⟨sameRegistry, sameDeployment, coherent⟩ := Selection.page_frame _ fresh.coherent none
  obtain ⟨outcome, moved, selected, owned, sited, shown, movedCoherent⟩ :=
    Selection.select_entry built _ sameRegistry coherent entry (by rw [listed]; exact List.mem_cons_self)
  have second := Selection.page_plain built moved owned movedCoherent none
  rw [sited, sameDeployment, shown] at second
  obtain ⟨nonempty, index, _, _, rfl⟩ := Registry.of_entries_cases built
  have firstPage : ((Selection.start _ deployment).page none).1 = lonePage entry rule deployment := first
  have secondPage : (moved.page none).1 = lonePage entry rule deployment := second
  simp only [run, loneRun, placeSamples, selected, firstPage, secondPage, bind_assoc, pure_bind]

def greetingRun (source output : String) : Effect Failure Report := loneRun greeting {} Deployment.root source output

theorem run_greeting (registry : Registry) (built : Registry.ofEntries [greeting] {} = .ok registry)
    (source output : String) : run registry Deployment.root source output = greetingRun source output :=
  run_lone greeting {} registry built Deployment.root source output

section Kept

variable (registry : Registry) (deployment : Deployment) (source output : String) (tree : FileTree)

theorem run_grows :
    (∃ failure, (run registry deployment source output).run tree =
        (.error failure, ((ensureDirectories output).run tree).2)) ∨
      ∃ made, (ensureDirectories output).run tree = (.ok (), made) ∧
        (checkOverlap source output).run made = (.ok (), made) ∧
        ∀ written : Location → Prop,
          (∀ names file, names ≠ [] → Preserves (Grows written made) (store (below output names) file)) →
          Grows written made ((run registry deployment source output).run tree).2 := by
  rcases run_keeps registry deployment source output tree with early | ⟨made, ensured, checked, kept⟩
  · exact .inl early
  · refine .inr ⟨made, ensured, checked, fun written stores => ?_⟩
    have directories : ∀ path, Preserves (Grows written made) (ensureDirectories path) :=
      fun path => growing_preserves _ (ensure_directories_growing path) written made
    have copies : ∀ names, names ≠ [] →
        Preserves (Grows written made) (copy (below source names) (below (join output "") names)) := by
      intro names inner
      rw [below_join_empty output names inner]
      exact fun before sofar => copy_keeps _ _ _ before sofar (fun _ _ _ => stores names _ inner before sofar)
    refine kept (Grows written made) (grows_refl _ made) ?_ ?_ ?_
    · intro html
      exact place_page_preserves _ _ html (fun parent _ => directories parent) (stores [indexName] _ (by simp))
    · intro entry _ html
      rw [sample_path_below]
      exact place_page_preserves _ _ html (fun parent _ => directories parent)
        (stores (samplePage entry.id) _ (by simp [samplePage]))
    · exact copy_assets_preserves _ source output (copy_below_preserves _ (fun _ => True) source (join output "") source
        (fun names _ => directories _) copies (fun _ _ _ _ _ _ _ _ => trivial) (fun _ _ _ _ _ => trivial) depthLimit [] []
        trivial)

theorem located_output (made : FileTree) (ensured : (ensureDirectories output).run tree = (.ok (), made))
    (site : Location) (located : made.locate output = .ok site) : made.inspect output = .ok (site, .directory) := by
  have nonempty : output ≠ "" := by
    rintro rfl
    have faultless := ((resolve_ok_iff made true "" _).mp ((locate_ok_iff made "" site).mp located)).1
    exact absurd faultless (by decide)
  obtain ⟨place, inspected⟩ :=
    (is_directory_iff made output).mp (ensure_directories_ok tree made output nonempty ensured)
  have here := ((inspect_ok_iff made output place _).mp inspected).1
  rw [located] at here
  cases here
  exact inspected

/-- Directories of which one lies in the other are refused, so only links can lead from one of the two into the other. -/
theorem sources_kept (home : Location) (present : tree.inspect source = .ok (home, .directory))
    (separate : ∀ site, ((ensureDirectories output).run tree).2.locate output = .ok site →
      Unlinked tree site ∧ ∀ place, Reachable tree home place → site <:+ place → home <:+ place)
    (place : Location) (reached : Reachable tree home place) (file : File)
    (held : tree.get? place = some (.file file)) :
    ((run registry deployment source output).run tree).2.get? place = some (.file file) := by
  have prepared := ensure_directories_growing output tree
  have stillHeld := (prepared.files place id file).mpr held
  rcases run_grows registry deployment source output tree with ⟨failure, early⟩ | ⟨made, ensured, checked, grows⟩
  · rw [early]
    exact stillHeld
  · rw [ensured] at prepared stillHeld separate
    have stillPresent := inspect_directory_grows prepared source home present
    obtain ⟨a, site, sourceAt, outputAt, apart⟩ :=
      (check_overlap_ok made made source output checked).2 ((is_directory_iff made source).mpr ⟨home, stillPresent⟩)
    rw [((inspect_ok_iff made source home _).mp stillPresent).1] at sourceAt
    cases sourceAt
    obtain ⟨unlinked, inside⟩ := separate site outputAt
    have madeUnlinked : Unlinked made site :=
      fun link target linked => unlinked link target ((prepared.links link target).mp linked)
    have outputDirectory := located_output output tree made ensured site outputAt
    have grown := grows (site <:+ ·) fun names file inner =>
      store_confined made output site outputDirectory madeUnlinked names inner file
    have outside : ¬ site <:+ place := fun within => below_apart home site place apart (inside place reached within) within
    exact (grown.files place outside file).mpr stillHeld

end Kept

def noteName : Name := ⟨"note.txt", by decide⟩

def sharedName : Name := ⟨"shared", by decide⟩

def lending : FileTree where
  entries := [([workName], .directory), ([publicName, workName], .directory), ([outputName, workName], .directory),
    ([sharedName, workName], .directory), ([noteName, sharedName, workName], .file { content := [1] }),
    ([sharedName, publicName, workName], .link "../shared")]
  current := [workName]
  distinct := by decide
  attached := by simp [Attached]

theorem lending_reachable (place : Location) (reached : Reachable lending [publicName, workName] place) :
    [publicName, workName] <:+ place ∨ [sharedName, workName] <:+ place := by
  refine reachable_within lending _ (fun place => [publicName, workName] <:+ place ∨ [sharedName, workName] <:+ place)
    (.inl List.suffix_rfl) ?_ place reached
  decide +kernel

theorem sources_kept_lending : ∃ registry, Registry.ofEntries [greeting] {} = .ok registry ∧
    lending.inspect "public" = .ok ([publicName, workName], .directory) ∧
    Reachable lending [publicName, workName] [noteName, sharedName, workName] ∧
    ((run registry Deployment.root "public" "dist").run lending).2.get? [noteName, sharedName, workName] =
      some (.file { content := [1] }) := by
  obtain ⟨registry, built⟩ := Registry.of_entries_ok [greeting] {} (by decide) (by decide) (by decide)
  have present : lending.inspect "public" = .ok ([publicName, workName], .directory) := by decide +kernel
  have located : ((ensureDirectories "dist").run lending).2.locate "dist" = .ok [outputName, workName] := by
    decide +kernel
  have reached : Reachable lending [publicName, workName] [noteName, sharedName, workName] :=
    .step [sharedName, workName] _ noteName (.step _ _ sharedName .home (by decide +kernel)) (by decide +kernel)
  refine ⟨registry, built, present, reached, ?_⟩
  refine sources_kept registry Deployment.root "public" "dist" lending [publicName, workName] present ?_ _ reached
    { content := [1] } (by decide)
  intro site outputAt
  rw [located] at outputAt
  cases outputAt
  constructor
  · have directories : ∀ entry ∈ lending.entries, [outputName, workName] <:+ entry.1 → entry.2 = .directory := by decide
    intro place target held inside
    cases directories _ (held_entry lending place _ (fun same => by cases same) held) inside
  · intro place reached inside
    rcases lending_reachable place reached with within | within
    · exact within
    · exact absurd inside (below_apart _ _ place (by decide) within)

def knotted : FileTree where
  entries := [([workName], .directory), ([publicName, workName], .directory), ([outputName, workName], .directory),
    ([noteName, publicName, workName], .file { content := [1] }),
    ([noteName, outputName, workName], .link "../public/note.txt")]
  current := [workName]
  distinct := by decide
  attached := by simp [Attached]

theorem linked_source_emptied : ∃ registry, Registry.ofEntries [greeting] {} = .ok registry ∧
    knotted.inspect "public" = .ok ([publicName, workName], .directory) ∧
    Reachable knotted [publicName, workName] [noteName, publicName, workName] ∧
    knotted.get? [noteName, publicName, workName] = some (.file { content := [1] }) ∧
    ((run registry Deployment.root "public" "dist").run knotted).1 =
      .ok ⟨["dist/index.html", "dist/samples/hello/index.html"], 1⟩ ∧
    ((run registry Deployment.root "public" "dist").run knotted).2.get? [noteName, publicName, workName] =
      some (.file { content := [] }) := by
  obtain ⟨registry, built⟩ := Registry.of_entries_ok [greeting] {} (by decide) (by decide) (by decide)
  refine ⟨registry, built, by decide +kernel, .step _ _ noteName .home (by decide +kernel), by decide, ?_⟩
  rw [run_greeting registry built]
  decide +kernel

/-- The check has to see the public directory: a directory that the pages make later is copied unchecked. -/
theorem copied_apart (registry : Registry) (deployment : Deployment) (source output : String) (tree made final : FileTree)
    (report : Report)
    (prepared : (ensureDirectories output).run tree = (.ok (), made)) (present : made.isDirectory source = true)
    (exported : (run registry deployment source output).run tree = (.ok report, final)) :
    ∃ home site, final.locate source = .ok home ∧ final.locate output = .ok site ∧ home ≠ site ∧
      ¬ home <:+ site ∧ ¬ site <:+ home := by
  rcases run_grows registry deployment source output tree with ⟨failure, early⟩ | ⟨other, ensured, checked, grows⟩
  · rw [early] at exported
    cases exported
  · rw [prepared] at ensured
    cases ensured
    obtain ⟨home, site, sourceAt, outputAt, apart⟩ := (check_overlap_ok made made source output checked).2 present
    obtain ⟨place, inspected⟩ := (is_directory_iff made source).mp present
    have located := ((inspect_ok_iff made source place _).mp inspected).1
    rw [sourceAt] at located
    cases located
    have grown := grows (fun _ => True) fun names file _ start growing =>
      grows_trans _ made start _ growing (grows_mono _ _ start _ (fun _ _ => trivial) (store_grows start _ file))
    rw [exported] at grown
    have sourceLater := inspect_directory_grows grown source home inspected
    have outputLater := inspect_directory_grows grown output site (located_output output tree made prepared site outputAt)
    refine ⟨home, site, ((inspect_ok_iff final source home _).mp sourceLater).1,
      ((inspect_ok_iff final output site _).mp outputLater).1, ?_, apart⟩
    rintro rfl
    exact apart.1 List.suffix_rfl

theorem copied_apart_lending : ∃ registry made report final, Registry.ofEntries [greeting] {} = .ok registry ∧
    (ensureDirectories "dist").run lending = (.ok (), made) ∧ made.isDirectory "public" = true ∧
    (run registry Deployment.root "public" "dist").run lending = (.ok report, final) ∧ report.copiedAssets = 1 ∧
    ∃ home site, final.locate "public" = .ok home ∧ final.locate "dist" = .ok site ∧ home ≠ site ∧
      ¬ home <:+ site ∧ ¬ site <:+ home := by
  obtain ⟨registry, built⟩ := Registry.of_entries_ok [greeting] {} (by decide) (by decide) (by decide)
  have ensured : ((ensureDirectories "dist").run lending).1 = .ok () := by decide +kernel
  have done : ((greetingRun "public" "dist").run lending).1 =
      .ok ⟨["dist/index.html", "dist/samples/hello/index.html"], 1⟩ := by decide +kernel
  rw [← run_greeting registry built] at done
  have present : ((ensureDirectories "dist").run lending).2.isDirectory "public" = true := by decide +kernel
  exact ⟨registry, _, _, _, built, Prod.ext ensured rfl, present, Prod.ext done rfl, rfl,
    copied_apart registry Deployment.root "public" "dist" lending _ _ _ (Prod.ext ensured rfl) present
      (Prod.ext done rfl)⟩

theorem made_source_copied : ∃ registry report final, Registry.ofEntries [greeting] {} = .ok registry ∧
    (run registry Deployment.root "dist/samples" "dist").run FileTree.empty = (.ok report, final) ∧
    report.copiedAssets = 1 ∧ ∃ home site, final.locate "dist/samples" = .ok home ∧ final.locate "dist" = .ok site ∧
      site <:+ home := by
  obtain ⟨registry, built⟩ := Registry.of_entries_ok [greeting] {} (by decide) (by decide) (by decide)
  have evaluated :
      ((greetingRun "dist/samples" "dist").run FileTree.empty).1 =
        .ok ⟨["dist/index.html", "dist/samples/hello/index.html"], 1⟩ ∧
      ((greetingRun "dist/samples" "dist").run FileTree.empty).2.locate "dist/samples" =
        .ok [samplesName, outputName, workName] ∧
      ((greetingRun "dist/samples" "dist").run FileTree.empty).2.locate "dist" = .ok [outputName, workName] := by
    decide +kernel
  rw [← run_greeting registry built] at evaluated
  obtain ⟨done, sourceAt, outputAt⟩ := evaluated
  exact ⟨registry, _, _, built, Prod.ext done rfl, rfl, _, _, sourceAt, outputAt, by decide⟩

end Export

end Showcase
