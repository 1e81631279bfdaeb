import Showcase.Proofs.Export
import Showcase.Proofs.Filling
import Showcase.Proofs.Follow

set_option autoImplicit false

namespace Showcase.Export

open FileTree
open FileTree.Path (join)

section Keeping

variable (holds : FileTree → Prop)

theorem during_preserves {α : Type} (message : String) (effect : Effect IoFault α) (kept : Preserves holds effect) :
    Preserves holds (during message effect) := by
  intro tree held
  rw [during_eq]
  exact kept tree held

theorem attempt_preserves {α : Type} (fail : IoFault → Failure) (result : Except IoFault α) :
    Preserves holds (attempt fail result) := by
  intro tree held
  cases result with
  | ok value => exact held
  | error fault => exact held

theorem fold_preserves {α : Type} (step : Nat → α → Effect Failure Nat) (items : List α)
    (kept : ∀ item ∈ items, ∀ count, Preserves holds (step count item)) (count : Nat) :
    Preserves holds (items.foldlM step count) := by
  induction items generalizing count with
  | nil => exact preserves_pure holds count
  | cons item rest ih =>
      rw [List.foldlM_cons]
      refine preserves_bind holds _ _ (kept item List.mem_cons_self count) (fun next => ?_)
      exact ih (fun other member => kept other (List.mem_cons_of_mem item member)) next

theorem place_page_preserves (path html : String)
    (directories : ∀ parent, Path.parent? path = some parent → Preserves holds (ensureDirectories parent))
    (writes : Preserves holds (write path (Text.utf8 html))) : Preserves holds (placePage path html) := by
  unfold placePage
  have written := during_preserves holds s!"failed to write '{path}'" _ writes
  cases above : Path.parent? path with
  | none => exact written
  | some parent =>
      exact preserves_bind holds _ _ (during_preserves holds (creating parent) _ (directories parent above))
        (fun _ => written)

theorem place_samples_preserves (directory : String) (listed : List SampleEntry)
    (pages : ∀ entry ∈ listed, ∀ html, Preserves holds (placePage (samplePath directory entry.id) html))
    (selection : Selection) : Preserves holds (placeSamples directory selection listed) := by
  induction listed generalizing selection with
  | nil => exact preserves_pure holds []
  | cons entry rest ih =>
      rw [placeSamples]
      cases selection.select entry.id.text with
      | error error => exact preserves_throw holds (Failure.ofError error)
      | ok found =>
          obtain ⟨outcome, moved⟩ := found
          refine preserves_bind holds (placePage (samplePath directory entry.id) (moved.page none).1.render) _
            (pages entry List.mem_cons_self _) (fun _ => ?_)
          refine preserves_bind holds (placeSamples directory (moved.page none).2 rest) _ (ih ?_ _)
            (fun _ => preserves_pure holds _)
          exact fun other member => pages other (List.mem_cons_of_mem entry member)

theorem copy_file_preserves (source target : String) (copies : Preserves holds (copy source target)) :
    Preserves holds (copyFile source target) :=
  preserves_bind holds _ _ (during_preserves holds _ _ copies) (fun _ => preserves_pure holds 1)

theorem copy_below_preserves (known : List Name → Prop) (source target root : String)
    (directories : ∀ names, known names → Preserves holds (ensureDirectories (below target names)))
    (files : ∀ names, names ≠ [] → Preserves holds (copy (below source names) (below target names)))
    (listed : ∀ tree names location name, holds tree → known names →
      tree.inspect (below source names) = .ok (location, .directory) →
      tree.get? (name :: location) = some .directory → known (names ++ [name]))
    (linked : ∀ tree names location, holds tree → tree.inspect (below source names) = .ok (location, .directory) →
      known names)
    (depth : Nat) (trail : List Location) (names : List Name) (here : known names) :
    Preserves holds (copyBelow root depth trail (below source names) (below target names)) := by
  induction depth generalizing trail names with
  | zero => exact preserves_throw holds _
  | succ depth ih =>
      intro tree held
      rw [copyBelow]
      refine bind_keeps holds _ _ tree (during_preserves holds _ _ (directories names here) tree held) ?_
      intro _ made _ madeHeld
      rw [run_get]
      refine bind_keeps holds (attempt _ (made.locate (below source names))) _ made
        (attempt_preserves holds _ _ made madeHeld) ?_
      intro location middle located _
      obtain ⟨_, rfl⟩ := attempt_ok _ _ made middle location located
      rw [run_get]
      refine bind_keeps holds (attempt _ (middle.list (below source names))) _ middle
        (attempt_preserves holds _ _ middle madeHeld) ?_
      intro children after found _
      obtain ⟨children_eq, rfl⟩ := attempt_ok _ _ middle after children found
      obtain ⟨place, inspected, rfl⟩ := (list_ok_iff after _ children).mp children_eq
      refine fold_preserves holds _ _ ?_ 0 after madeHeld
      rintro ⟨name, node⟩ member count
      have below_child := fun base => below_snoc base names name
      have copied := copy_file_preserves holds _ _ (files (names ++ [name]) (by simp))
      rw [below_child, below_child] at copied
      cases node with
      | file file => exact preserves_bind holds (copyFile _ _) _ copied (fun _ => preserves_pure holds _)
      | directory =>
          have entered := ih (location :: trail) (names ++ [name])
            (listed after names place name madeHeld here inspected ((child_iff after place name _).mp member))
          rw [below_child, below_child] at entered
          exact preserves_bind holds (copyBelow root depth _ _ _) _ entered (fun _ => preserves_pure holds _)
      | link linkedTo =>
          intro before beforeHeld
          dsimp only
          rw [run_get]
          refine bind_keeps holds (attempt _ (before.inspect _)) _ before
            (attempt_preserves holds _ _ before beforeHeld) ?_
          rintro ⟨goal, shown⟩ middle reached _
          obtain ⟨hit, rfl⟩ := attempt_ok _ _ before middle _ reached
          have copying := preserves_bind holds _ (fun more => pure (count + more)) copied
            (fun _ => preserves_pure holds _) middle beforeHeld
          cases shown with
          | file file => exact copying
          | link target => exact copying
          | directory =>
              dsimp only
              split
              · exact beforeHeld
              · rw [← below_child] at hit
                have entered := ih (location :: trail) (names ++ [name]) (linked middle _ goal beforeHeld hit)
                rw [below_child, below_child] at entered
                exact preserves_bind holds (copyBelow root depth _ _ _) _ entered (fun _ => preserves_pure holds _) middle
                  beforeHeld

theorem copy_assets_preserves (source output : String)
    (copies : Preserves holds (copyBelow source depthLimit [] source (join output ""))) :
    Preserves holds (copyAssets source output) := by
  refine preserves_bind holds _ _ (preserves_get holds) (fun tree => ?_)
  split
  · exact copies
  · exact preserves_pure holds 0

end Keeping

theorem copy_below_grows (written : Location → Prop) (start : FileTree) (free : LinkFree start) (source target : String)
    (covers : ∀ tree names file, Grows written start tree → names ≠ [] → tree.openFile (below source names) = .ok file →
      written (names.reverse ++ start.target target))
    (root : String) (depth : Nat) (trail : List Location) :
    Preserves (Grows written start) (copyBelow root depth trail source target) := by
  refine copy_below_preserves _ (fun _ => True) source target root ?_ ?_ (fun _ _ _ _ _ _ _ _ => trivial)
    (fun _ _ _ _ _ => trivial) depth trail [] trivial
  · exact fun names _ => growing_preserves _ (ensure_directories_growing _) written start
  · intro names inner tree grown
    refine copy_keeps _ _ _ tree grown (fun file opened content => ?_)
    -- The source itself may have grown, so the file is looked for in the tree at this time.
    have place := covers tree names file grown inner opened
    rw [← target_below] at place
    exact (store_fills (fun _ => True) written start free _ _ place tree ⟨grown, fun _ _ => .inr trivial⟩).toGrows

theorem check_overlap_frame (source output : String) (tree : FileTree) :
    ((checkOverlap source output).run tree).2 = tree := by
  refine preserves_bind (· = tree) _ _ (preserves_get _) (fun before => ?_) tree rfl
  split
  · refine preserves_bind _ _ _ (preserves_get _) (fun tree => ?_)
    refine preserves_bind _ (attempt _ (tree.locate source)) _ (attempt_preserves _ _ _) (fun a => ?_)
    refine preserves_bind _ (attempt _ (tree.locate output)) _ (attempt_preserves _ _ _) (fun b => ?_)
    split
    · exact preserves_throw _ _
    · exact preserves_pure _ ()
  · exact preserves_pure _ ()

/-- A run fails before its first page, or it leaves what its pages and copies keep. -/
theorem run_keeps (registry : Registry) (deployment : Deployment) (source output : String) (tree : FileTree) :
    (∃ failure, (run registry deployment source output).run tree =
        (.error failure, ((ensureDirectories output).run tree).2)) ∨
      ∃ made, (ensureDirectories output).run tree = (.ok (), made) ∧
        (checkOverlap source output).run made = (.ok (), made) ∧
        ∀ holds : FileTree → Prop, holds made → (∀ html, Preserves holds (placePage (indexPath output) html)) →
          (∀ entry ∈ registry.entries, ∀ html, Preserves holds (placePage (samplePath output entry.id) html)) →
          Preserves holds (copyAssets source output) →
          holds ((run registry deployment source output).run tree).2 := by
  cases ensured : (ensureDirectories output).run tree with
  | mk result made =>
      cases result with
      | error fault =>
          left
          rw [run, run_bind, during_eq, ensured]
          exact ⟨_, rfl⟩
      | ok value =>
          have created := during_run (creating output) _ tree made value ensured
          cases checked : (checkOverlap source output).run made with
          | mk verdict same =>
              have frame := check_overlap_frame source output made
              rw [checked] at frame
              subst frame
              cases verdict with
              | error failure =>
                  left
                  rw [run, run_bind, created]
                  dsimp only
                  rw [run_bind, checked]
                  exact ⟨failure, rfl⟩
              | ok accepted =>
                  right
                  refine ⟨same, rfl, checked, fun holds held index samples copies => ?_⟩
                  rw [run, run_bind, created]
                  dsimp only
                  rw [run_bind, checked]
                  dsimp only
                  refine preserves_bind holds _ _ (index _) (fun _ => ?_) same held
                  refine preserves_bind holds _ _ (place_samples_preserves holds output registry.entries samples _)
                    (fun paths => ?_)
                  exact preserves_bind holds _ _ copies (fun _ => preserves_pure holds _)

end Showcase.Export
