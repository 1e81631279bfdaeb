import Showcase.Proofs.Sources
/-!
When an export is refused. The refusal says that the public directory and the output directory overlap, and it is given
exactly when one of the two locations lies in the other, whatever the two paths look like. Every later failure names what
went wrong below it, so none can be taken for the refusal.
-/
set_option autoImplicit false

namespace Showcase.Export

open FileTree
open FileTree.Path (join)

def overlapping (source output : String) : Failure :=
  [.message s!"output directory '{output}' overlaps public directory '{source}'"]

def Caused (failure : Failure) : Prop := ∀ text, failure ≠ [.message text]

def FailsCaused {α : Type} (effect : Effect Failure α) : Prop :=
  ∀ tree failure, (effect.run tree).1 = .error failure → Caused failure

section Caused

variable {α β : Type}

theorem fails_pure (value : α) : FailsCaused (pure value : Effect Failure α) := by
  intro tree failure failed
  cases failed

theorem fails_throw (failure : Failure) (caused : Caused failure) :
    FailsCaused (throw failure : Effect Failure α) := by
  intro tree other failed
  cases failed
  exact caused

theorem fails_get : FailsCaused (get : Effect Failure FileTree) := by
  intro tree failure failed
  cases failed

theorem fails_bind (effect : Effect Failure α) (next : α → Effect Failure β) (first : FailsCaused effect)
    (rest : ∀ value, FailsCaused (next value)) : FailsCaused (effect >>= next) := by
  intro tree failure failed
  rw [run_bind] at failed
  cases result : effect.run tree with
  | mk outcome middle =>
      rw [result] at failed
      cases outcome with
      | ok value => exact rest value middle failure failed
      | error cause =>
          cases failed
          exact first tree failure (by rw [result])

theorem fails_fold (step : Nat → α → Effect Failure Nat) (items : List α)
    (each : ∀ count item, FailsCaused (step count item)) (count : Nat) : FailsCaused (items.foldlM step count) := by
  induction items generalizing count with
  | nil => exact fails_pure count
  | cons item rest ih =>
      rw [List.foldlM_cons]
      exact fails_bind _ _ (each count item) ih

theorem during_fails (message : String) (effect : Effect IoFault α) : FailsCaused (during message effect) := by
  intro tree failure failed
  rw [during_eq] at failed
  cases result : (effect.run tree).1 with
  | ok value =>
      rw [result] at failed
      cases failed
  | error fault =>
      rw [result] at failed
      cases failed
      simp [Caused, Failure.ofIo]

theorem attempt_fails (fail : IoFault → Failure) (caused : ∀ fault, Caused (fail fault)) (result : Except IoFault α) :
    FailsCaused (attempt fail result) := by
  cases result with
  | ok value => exact fails_pure value
  | error fault => exact fails_throw (fail fault) (caused fault)

theorem walking_caused (root : String) (cause : Cause) (causes : List Cause) :
    Caused (walking root (cause :: causes)) := by
  simp [Caused, walking]

end Caused

theorem place_page_fails (path html : String) : FailsCaused (placePage path html) := by
  unfold placePage
  cases Path.parent? path with
  | none => exact during_fails _ _
  | some parent => exact fails_bind _ _ (during_fails _ _) (fun _ => during_fails _ _)

theorem place_samples_fails (output : String) (listed : List SampleEntry) (selection : Selection) :
    FailsCaused (placeSamples output selection listed) := by
  induction listed generalizing selection with
  | nil => exact fails_pure []
  | cons entry rest ih =>
      rw [placeSamples]
      cases selection.select entry.id.text with
      | error error => exact fails_throw _ (by simp [Caused, Failure.ofError])
      | ok found =>
          obtain ⟨outcome, moved⟩ := found
          refine fails_bind (placePage _ (moved.page none).1.render) _ (place_page_fails _ _) (fun _ => ?_)
          exact fails_bind (placeSamples output (moved.page none).2 rest) _ (ih _) (fun _ => fails_pure _)

theorem copy_file_fails (source target : String) : FailsCaused (copyFile source target) :=
  fails_bind _ _ (during_fails _ _) (fun _ => fails_pure 1)

theorem copy_below_fails (root : String) (depth : Nat) (trail : List Location) (source target : String) :
    FailsCaused (copyBelow root depth trail source target) := by
  induction depth generalizing trail source target with
  | zero => exact fails_throw _ (walking_caused _ _ _)
  | succ depth ih =>
      rw [copyBelow]
      refine fails_bind _ _ (during_fails _ _) (fun _ => fails_bind _ _ fails_get (fun made => ?_))
      refine fails_bind (attempt _ (made.locate source)) _ (attempt_fails _ (fun _ => walking_caused _ _ _) _)
        (fun here => fails_bind _ _ fails_get (fun before => ?_))
      refine fails_bind (attempt _ (before.list source)) _ (attempt_fails _ (fun _ => walking_caused _ _ _) _)
        (fun children => fails_fold _ _ ?_ 0)
      rintro copied ⟨name, node⟩
      have counted : ∀ effect : Effect Failure Nat, FailsCaused effect →
          FailsCaused (effect >>= fun more => pure (copied + more)) :=
        fun effect caused => fails_bind _ _ caused (fun _ => fails_pure _)
      cases node with
      | file file => exact counted _ (copy_file_fails _ _)
      | directory => exact counted _ (ih _ _ _)
      | link linked =>
          dsimp only
          refine fails_bind _ _ fails_get (fun found => ?_)
          refine fails_bind (attempt _ (found.inspect _)) _ (attempt_fails _ (fun _ => walking_caused _ _ _) _) ?_
          rintro ⟨location, shown⟩
          cases shown with
          | file file => exact counted _ (copy_file_fails _ _)
          | link target => exact counted _ (copy_file_fails _ _)
          | directory =>
              dsimp only
              split
              · exact counted _ (fails_throw _ (walking_caused _ _ _))
              · exact counted _ (ih _ _ _)

theorem copy_assets_fails (source output : String) : FailsCaused (copyAssets source output) := by
  refine fails_bind _ _ fails_get (fun tree => ?_)
  split
  · exact copy_below_fails _ _ _ _ _
  · exact fails_pure 0

def publish (registry : Registry) (deployment : Deployment) (source output : String) : Effect Failure Report := do
  let (page, selection) := (Selection.start registry deployment).page none
  placePage (indexPath output) page.render
  let samples ← placeSamples output selection registry.entries
  let copied ← copyAssets source output
  return ⟨indexPath output :: samples, copied⟩

theorem publish_fails (registry : Registry) (deployment : Deployment) (source output : String) :
    FailsCaused (publish registry deployment source output) := by
  refine fails_bind (placePage (indexPath output) _) _ (place_page_fails _ _) (fun _ => ?_)
  refine fails_bind (placeSamples output _ registry.entries) _ (place_samples_fails _ _ _) (fun samples => ?_)
  exact fails_bind (copyAssets source output) _ (copy_assets_fails _ _) (fun _ => fails_pure _)

section Checked

variable (source output : String) (tree made : FileTree)

theorem run_checked (registry : Registry) (deployment : Deployment)
    (prepared : (ensureDirectories output).run tree = (.ok (), made)) :
    (run registry deployment source output).run tree =
      (checkOverlap source output >>= fun _ => publish registry deployment source output).run made :=
  run_bind_value _ _ tree made () (during_run (creating output) _ tree made () prepared)

variable {source output made}

theorem check_overlap_failed {home site : Location} (present : made.isDirectory source = true)
    (sourceAt : made.locate source = .ok home) (outputAt : made.locate output = .ok site)
    (overlaps : home <:+ site ∨ site <:+ home) :
    (checkOverlap source output).run made = (.error (overlapping source output), made) := by
  have within : (isWithin site home || isWithin home site) = true := by
    rw [Bool.or_eq_true]
    exact overlaps.imp List.isSuffixOf_iff_suffix.mpr List.isSuffixOf_iff_suffix.mpr
  change (if made.isDirectory source = true then refuseOverlap source output else pure ()).run made = _
  rw [if_pos present, refuseOverlap, run_get]
  refine (run_bind_value (attempt _ (made.locate source)) _ made made home
    (attempt_run _ made _ home sourceAt)).trans ?_
  refine (run_bind_value (attempt _ (made.locate output)) _ made made site
    (attempt_run _ made _ site outputAt)).trans ?_
  rw [within]
  rfl

theorem check_overlap_lost {home : Location} {fault : IoFault} (present : made.isDirectory source = true)
    (sourceAt : made.locate source = .ok home) (outputAt : made.locate output = .error fault) :
    (checkOverlap source output).run made = (.error (Failure.ofIo s!"failed to resolve '{output}'" fault), made) := by
  change (if made.isDirectory source = true then refuseOverlap source output else pure ()).run made = _
  rw [if_pos present, refuseOverlap, run_get]
  refine (run_bind_value (attempt _ (made.locate source)) _ made made home
    (attempt_run _ made _ home sourceAt)).trans ?_
  dsimp only
  rw [outputAt, run_bind]
  rfl

theorem run_refused (registry : Registry) (deployment : Deployment) {failure : Failure}
    (prepared : (ensureDirectories output).run tree = (.ok (), made))
    (refused : (checkOverlap source output).run made = (.error failure, made)) :
    (run registry deployment source output).run tree = (.error failure, made) := by
  rw [run_checked source output tree made registry deployment prepared, run_bind, refused]

theorem run_published (registry : Registry) (deployment : Deployment)
    (prepared : (ensureDirectories output).run tree = (.ok (), made))
    (checked : (checkOverlap source output).run made = (.ok (), made)) :
    ((run registry deployment source output).run tree).1 ≠ .error (overlapping source output) := by
  rw [run_checked source output tree made registry deployment prepared, run_bind_value _ _ made made () checked]
  intro failed
  exact publish_fails registry deployment source output made _ failed _ rfl

end Checked

/-- A location lists its names from the inside out, so a directory is a suffix of what lies in it. An empty output path
is made without doing anything and leads nowhere. -/
theorem overlap_refused (registry : Registry) (deployment : Deployment) (source output : String) (tree made : FileTree)
    (prepared : (ensureDirectories output).run tree = (.ok (), made)) (present : made.isDirectory source = true) :
    let result := (run registry deployment source output).run tree
    (output ≠ "" → ∃ home site, made.inspect source = .ok (home, .directory) ∧
      made.inspect output = .ok (site, .directory)) ∧
    (result.1 = .error (overlapping source output) ↔
      ∃ home site, made.inspect source = .ok (home, .directory) ∧ made.inspect output = .ok (site, .directory) ∧
        (home <:+ site ∨ site <:+ home)) ∧
    (result.1 = .error (overlapping source output) → result.2 = made ∧
      (∀ place file, made.get? place = some (.file file) ↔ tree.get? place = some (.file file)) ∧
      ∀ place target, made.get? place = some (.link target) ↔ tree.get? place = some (.link target)) := by
  intro result
  obtain ⟨home, sourceAt⟩ := (is_directory_iff made source).mp present
  have sourceLocated := ((inspect_ok_iff made source home _).mp sourceAt).1
  have grown := ensure_directories_growing output tree
  rw [prepared] at grown
  refine ⟨?_, ?_⟩
  · intro nonempty
    obtain ⟨site, outputAt⟩ :=
      (is_directory_iff made output).mp (ensure_directories_ok tree made output nonempty prepared)
    exact ⟨home, site, sourceAt, outputAt⟩
  cases outputLocated : made.locate output with
  | error fault =>
      have lost := check_overlap_lost present sourceLocated outputLocated
      have other : result.1 ≠ .error (overlapping source output) := by
        rw [show result = _ from run_refused tree registry deployment prepared lost]
        simp [overlapping, Failure.ofIo]
      refine ⟨⟨fun failed => absurd failed other, ?_⟩, fun failed => absurd failed other⟩
      rintro ⟨_, site, _, outputAt, _⟩
      rw [((inspect_ok_iff made output site _).mp outputAt).1] at outputLocated
      cases outputLocated
  | ok site =>
      have outputAt := located_output output tree made prepared site outputLocated
      by_cases overlaps : home <:+ site ∨ site <:+ home
      · have refused : result = (.error (overlapping source output), made) :=
          run_refused tree registry deployment prepared
            (check_overlap_failed present sourceLocated outputLocated overlaps)
        rw [refused]
        exact ⟨⟨fun _ => ⟨home, site, sourceAt, outputAt, overlaps⟩, fun _ => rfl⟩,
          fun _ => ⟨rfl, fun place file => grown.files place id file, grown.links⟩⟩
      · have apart : (isWithin site home || isWithin home site) = false := by
          rw [← Bool.not_eq_true, Bool.or_eq_true]
          exact fun within => overlaps (within.imp List.isSuffixOf_iff_suffix.mp List.isSuffixOf_iff_suffix.mp)
        have other := run_published tree registry deployment prepared
          (check_overlap_run made source output home site sourceLocated outputLocated apart)
        refine ⟨⟨fun failed => absurd failed other, ?_⟩, fun failed => absurd failed other⟩
        rintro ⟨a, b, sourceFound, outputFound, inside⟩
        rw [sourceAt] at sourceFound
        rw [outputAt] at outputFound
        cases sourceFound
        cases outputFound
        exact absurd inside overlaps

def innerName : Name := ⟨"inner", by decide⟩

def twinName : Name := ⟨"public2", by decide⟩

def aliasName : Name := ⟨"alias", by decide⟩

def neighbours : FileTree where
  entries := [([workName], .directory), ([publicName, workName], .directory),
    ([innerName, publicName, workName], .directory), ([twinName, workName], .directory),
    ([aliasName, workName], .link ".//public/inner")]
  current := [workName]
  distinct := by decide
  attached := by simp [Attached]

theorem overlap_refused_spelled : ∃ registry, Registry.ofEntries [greeting] {} = .ok registry ∧
    (let result := (run registry Deployment.root "public" "alias/..//./new").run neighbours
    result.1 = .error (overlapping "public" "alias/..//./new") ∧
      result.2 = ((ensureDirectories "alias/..//./new").run neighbours).2) ∧
    ((run registry Deployment.root "public" "public2").run neighbours).1 ≠ .error (overlapping "public" "public2") := by
  obtain ⟨registry, built⟩ := Registry.of_entries_ok [greeting] {} (by decide) (by decide) (by decide)
  have inside : ((ensureDirectories "alias/..//./new").run neighbours).1 = .ok () := by decide +kernel
  have beside : ((ensureDirectories "public2").run neighbours).1 = .ok () := by decide +kernel
  obtain ⟨_, refused, unchanged⟩ := overlap_refused registry Deployment.root "public" "alias/..//./new" neighbours _
    (Prod.ext inside rfl) (by decide +kernel)
  obtain ⟨_, accepted, _⟩ := overlap_refused registry Deployment.root "public" "public2" neighbours _
    (Prod.ext beside rfl) (by decide +kernel)
  have nested := refused.mpr ⟨[publicName, workName], [⟨"new", by decide⟩, publicName, workName], by decide +kernel,
    by decide +kernel, by decide⟩
  refine ⟨registry, built, ⟨nested, (unchanged nested).1⟩, ?_⟩
  rw [Ne, accepted]
  rintro ⟨home, site, sourceAt, outputAt, overlaps⟩
  have source : ((ensureDirectories "public2").run neighbours).2.inspect "public" =
      .ok ([publicName, workName], .directory) := by decide +kernel
  have output : ((ensureDirectories "public2").run neighbours).2.inspect "public2" =
      .ok ([twinName, workName], .directory) := by decide +kernel
  rw [source] at sourceAt
  rw [output] at outputAt
  cases sourceAt
  cases outputAt
  revert overlaps
  decide

end Showcase.Export
