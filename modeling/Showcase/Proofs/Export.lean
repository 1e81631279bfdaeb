import Showcase.Export
import Showcase.Proofs.Effects
import Showcase.Proofs.Links

set_option autoImplicit false

namespace Showcase

open FileTree
open FileTree.Path (join opened)

namespace Export

def indexName : Name := ⟨"index.html", by decide⟩

def samplesName : Name := ⟨"samples", by decide⟩

def idName (id : SampleId) : Name := ⟨id.text, id.proper⟩

def samplePage (id : SampleId) : List Name := [samplesName, idName id, indexName]

theorem name_opened (name : Name) : opened name.text = name.text ++ "/" := by
  have last : name.text.toList.getLast? ≠ some '/' := fun slash => name.slashless (List.mem_of_getLast? slash)
  simp [opened, name.nonempty, last]

theorem index_path_below (directory : String) : indexPath directory = below directory [indexName] := rfl

theorem page_file_head (id : SampleId) : (id.pagePath ++ "index.html").toList.head? ≠ some '/' := by
  rw [SampleId.pagePath, String.append_assoc, String.append_assoc, String.toList_append, List.head?_append]
  simp

theorem sample_page_below (directory : String) (id : SampleId) :
    below directory (samplePage id) = join directory (id.pagePath ++ "index.html") := by
  have nested : below directory (samplePage id) =
      join (join (join directory samplesName.text) (idName id).text) indexName.text := rfl
  rw [nested, Path.join_plain _ _ indexName.plain, Path.opened_join _ _ (idName id).plain,
    Path.opened_join _ _ samplesName.plain, name_opened, name_opened,
    Path.join_plain _ _ (page_file_head id)]
  simp only [String.append_assoc, SampleId.pagePath, samplesName, idName, indexName]
  rw [show "samples/" = "samples" ++ "/" by decide]
  simp only [String.append_assoc]

theorem sample_path_below (directory : String) (id : SampleId) :
    samplePath directory id = below directory (samplePage id) := by
  have slashed : opened id.pagePath = id.pagePath := by
    rw [SampleId.pagePath, Path.opened_append _ "/" (by decide)]
    rfl
  rw [sample_page_below, samplePath,
    Path.join_join directory id.pagePath "index.html" (Server.page_path_head id) (by decide), slashed,
    Path.join_plain _ _ (page_file_head id), String.append_assoc]

theorem during_eq {α : Type} (message : String) (effect : Effect IoFault α) (tree : FileTree) :
    (during message effect).run tree =
      ((effect.run tree).1.mapError (Failure.ofIo message), (effect.run tree).2) := rfl

theorem during_ok {α : Type} (message : String) (effect : Effect IoFault α) (tree after : FileTree) (value : α)
    (done : (during message effect).run tree = (.ok value, after)) : effect.run tree = (.ok value, after) := by
  rw [during_eq] at done
  cases first : effect.run tree with
  | mk result middle =>
      rw [first] at done
      cases result with
      | error fault => cases done
      | ok found =>
          cases done
          rfl

theorem during_run {α : Type} (message : String) (effect : Effect IoFault α) (tree after : FileTree) (value : α)
    (done : effect.run tree = (.ok value, after)) : (during message effect).run tree = (.ok value, after) := by
  rw [during_eq, done]
  rfl

theorem attempt_ok {α : Type} (fail : IoFault → Failure) (result : Except IoFault α) (tree after : FileTree) (value : α)
    (done : (attempt fail result).run tree = (.ok value, after)) : result = .ok value ∧ after = tree := by
  cases result with
  | error fault => cases done
  | ok found =>
      cases done
      exact ⟨rfl, rfl⟩

theorem attempt_run {α : Type} (fail : IoFault → Failure) (tree : FileTree) (result : Except IoFault α) (value : α)
    (done : result = .ok value) : (attempt fail result).run tree = (.ok value, tree) := by
  rw [done]
  rfl

theorem place_page_parts (tree after : FileTree) (path html : String)
    (placed : (placePage path html).run tree = (.ok (), after)) :
    ∃ middle, Grows Untouched tree middle ∧
      (∀ parent, Path.parent? path = some parent → (ensureDirectories parent).run tree = (.ok (), middle)) ∧
      (write path (Text.utf8 html)).run middle = (.ok (), after) := by
  unfold placePage at placed
  cases above : Path.parent? path with
  | none =>
      rw [above] at placed
      refine ⟨tree, grows_refl _ tree, ?_, during_ok _ _ tree after () placed⟩
      intro parent same
      cases same
  | some directory =>
      rw [above] at placed
      obtain ⟨_, middle, making, written⟩ := run_bind_ok _ _ tree after () placed
      have made := during_ok _ _ tree middle _ making
      have grown := ensure_directories_growing directory tree
      rw [made] at grown
      refine ⟨middle, grown, ?_, during_ok _ _ middle after () written⟩
      intro parent same
      cases same
      exact made

theorem place_page_ok (tree after : FileTree) (free : LinkFree tree) (path html : String)
    (placed : (placePage path html).run tree = (.ok (), after)) :
    Grows (· = tree.target path) tree after ∧ after.openFile path = .ok (Text.utf8 html) := by
  obtain ⟨middle, made, _, written⟩ := place_page_parts tree after path html placed
  obtain ⟨grown, _, opened⟩ := store_ok middle after (grows_link_free _ tree middle made free) path _ written
  rw [target_congr middle tree made.current] at grown
  exact ⟨grows_trans _ tree middle after (grows_untouched _ tree middle made) grown, opened⟩

theorem place_page_run (tree : FileTree) (free : LinkFree tree) (directory : String)
    (present : tree.isDirectory directory = true) (name : Name) (html : String)
    (parent : Path.parent? (below directory [name]) = some directory)
    (short : name.text.utf8ByteSize ≤ nameLimit) (faultless : pathFault? (below directory [name]) = none)
    (room : Replaceable tree (name :: tree.target directory)) :
    (placePage (below directory [name]) html).run tree =
      (.ok (), tree.put (name :: tree.target directory) (.file (Text.utf8 html))) := by
  have made := during_run (creating directory) _ tree tree () (ensure_existing tree free directory present)
  have written := write_below_run tree free directory present name (Text.utf8 html) short faultless room
  unfold placePage
  rw [parent]
  refine (run_bind_value _ _ tree tree () made).trans ?_
  exact during_run _ _ tree _ () written

theorem sample_target_injective (tree : FileTree) (directory : String) (a b : SampleId)
    (same : tree.target (samplePath directory a) = tree.target (samplePath directory b)) : a = b := by
  rw [sample_path_below, sample_path_below, target_below, target_below] at same
  have pages := List.reverse_inj.mp (List.append_cancel_right same)
  simp only [samplePage, List.cons.injEq, idName, Name.mk.injEq, and_true, true_and] at pages
  cases a
  cases b
  simpa using pages

theorem place_samples_parts (directory : String) (selection : Selection) (entry : SampleEntry) (rest : List SampleEntry)
    (tree after : FileTree) (paths : List String)
    (placed : (placeSamples directory selection (entry :: rest)).run tree = (.ok paths, after)) :
    ∃ outcome moved middle others, selection.select entry.id.text = .ok (outcome, moved) ∧
      (placePage (samplePath directory entry.id) (moved.page none).1.render).run tree = (.ok (), middle) ∧
      (placeSamples directory (moved.page none).2 rest).run middle = (.ok others, after) ∧
      paths = samplePath directory entry.id :: others := by
  rw [placeSamples] at placed
  cases selected : selection.select entry.id.text with
  | error error =>
      rw [selected] at placed
      cases placed
  | ok found =>
      obtain ⟨outcome, moved⟩ := found
      rw [selected] at placed
      obtain ⟨_, middle, first, later⟩ := run_bind_ok
        (placePage (samplePath directory entry.id) (moved.page none).1.render) _ tree after paths placed
      obtain ⟨others, last, tail, done⟩ := run_bind_ok
        (placeSamples directory (moved.page none).2 rest) _ middle after paths later
      cases done
      exact ⟨outcome, moved, middle, others, rfl, first, tail, rfl⟩

section Built

variable {entries : List SampleEntry} {rule : ArtifactRule} {registry : Registry}

theorem place_samples_ok (built : Registry.ofEntries entries rule = .ok registry) (deployment : Deployment)
    (directory : String) (listed : List SampleEntry) (known : ∀ entry ∈ listed, entry ∈ registry.entries)
    (selection : Selection) (owned : selection.registry = registry) (sited : selection.deployment = deployment)
    (coherent : selection.Coherent) (tree after : FileTree) (free : LinkFree tree) (paths : List String)
    (placed : (placeSamples directory selection listed).run tree = (.ok paths, after)) :
    Grows (fun place => ∃ entry ∈ listed, place = tree.target (samplePath directory entry.id)) tree after ∧
      ∀ entry ∈ listed, after.openFile (samplePath directory entry.id) =
        .ok (Text.utf8 (plainPage registry deployment entry none).render) := by
  induction listed generalizing selection tree paths with
  | nil =>
      cases placed
      exact ⟨grows_refl _ _, fun entry member => by cases member⟩
  | cons entry rest ih =>
      have member := known entry List.mem_cons_self
      obtain ⟨_, moved, middle, others, selected, first, tail, _⟩ :=
        place_samples_parts directory selection entry rest tree after paths placed
      obtain ⟨_, _, found, movedOwned, movedSited, shown, movedCoherent⟩ :=
        Selection.select_entry built selection owned coherent entry member
      rw [selected] at found
      cases found
      have page := Selection.page_plain built moved movedOwned movedCoherent none
      rw [movedSited, sited, shown] at page
      obtain ⟨grown, opened⟩ := place_page_ok tree middle free _ _ first
      rw [page] at opened
      -- The selection is the same object for all pages: what it keeps of this page never shows on the next.
      obtain ⟨sameRegistry, sameDeployment, stillCoherent⟩ := Selection.page_frame moved movedCoherent none
      obtain ⟨more, opens⟩ := ih (fun other inside => known other (List.mem_cons_of_mem entry inside)) (moved.page none).2
        (sameRegistry.trans movedOwned) (sameDeployment.trans (movedSited.trans sited)) stillCoherent middle
        (grows_link_free _ tree middle grown free) others tail
      have same := target_congr middle tree grown.current
      simp only [same] at more
      refine ⟨?_, ?_⟩
      · refine grows_trans _ tree middle after (grows_mono _ _ tree middle ?_ grown)
          (grows_mono _ _ middle after ?_ more)
        · intro place here
          exact ⟨entry, List.mem_cons_self, here⟩
        · rintro place ⟨other, inside, here⟩
          exact ⟨other, List.mem_cons_of_mem entry inside, here⟩
      · intro other inside
        rcases List.mem_cons.mp inside with rfl | later
        · by_cases again : ∃ copy ∈ rest, copy.id = other.id
          · obtain ⟨copy, repeated, sameId⟩ := again
            rw [← Registry.entry_of_id built copy other (known copy (List.mem_cons_of_mem other repeated)) member sameId]
            exact opens copy repeated
          · refine open_grows (grows_link_free _ tree middle grown free) _ more _ _ ?_ opened
            rintro ⟨copy, repeated, here⟩
            rw [same] at here
            exact again ⟨copy, repeated, sample_target_injective tree directory copy.id other.id here.symm⟩
        · exact opens other later

end Built

theorem place_samples_cons (directory : String) (selection : Selection) (entry : SampleEntry) (rest : List SampleEntry)
    (outcome : Selection.Outcome) (moved : Selection) (tree middle after : FileTree) (paths : List String)
    (selected : selection.select entry.id.text = .ok (outcome, moved))
    (page : (placePage (samplePath directory entry.id) (moved.page none).1.render).run tree = (.ok (), middle))
    (later : (placeSamples directory (moved.page none).2 rest).run middle = (.ok paths, after)) :
    (placeSamples directory selection (entry :: rest)).run tree =
      (.ok (samplePath directory entry.id :: paths), after) := by
  rw [placeSamples, selected]
  refine (run_bind_value (placePage (samplePath directory entry.id) (moved.page none).1.render) _ tree middle ()
    page).trans ?_
  exact run_bind_value (placeSamples directory (moved.page none).2 rest) _ middle after paths later

theorem refuse_overlap_ok (tree after : FileTree) (source output : String)
    (checked : (refuseOverlap source output).run tree = (.ok (), after)) :
    after = tree ∧ ∃ a b, tree.locate source = .ok a ∧ tree.locate output = .ok b ∧ ¬ a <:+ b ∧ ¬ b <:+ a := by
  rw [refuseOverlap, run_get] at checked
  obtain ⟨a, first, located, rest⟩ := run_bind_ok (attempt _ (tree.locate source)) _ tree after () checked
  obtain ⟨sourceAt, rfl⟩ := attempt_ok _ _ tree first a located
  obtain ⟨b, second, found, last⟩ := run_bind_ok (attempt _ (first.locate output)) _ first after () rest
  obtain ⟨outputAt, rfl⟩ := attempt_ok _ _ first second b found
  cases overlap : isWithin b a || isWithin a b with
  | true =>
      rw [overlap] at last
      cases last
  | false =>
      rw [overlap] at last
      cases last
      rw [Bool.or_eq_false_iff] at overlap
      refine ⟨rfl, a, b, sourceAt, outputAt, ?_, ?_⟩
      · intro inside
        have within : isWithin b a = true := List.isSuffixOf_iff_suffix.mpr inside
        rw [overlap.1] at within
        cases within
      · intro inside
        have within : isWithin a b = true := List.isSuffixOf_iff_suffix.mpr inside
        rw [overlap.2] at within
        cases within

theorem below_apart (a b place : Location) (apart : ¬ a <:+ b ∧ ¬ b <:+ a) (inside : a <:+ place) : ¬ b <:+ place := by
  intro also
  rcases List.suffix_or_suffix_of_suffix inside also with within | within
  · exact apart.1 within
  · exact apart.2 within

theorem copy_file_ok (tree after : FileTree) (free : LinkFree tree) (source target : String) (count : Nat)
    (copied : (copyFile source target).run tree = (.ok count, after)) :
    count = 1 ∧ (∃ file, tree.openFile source = .ok file ∧
        (tree.target source ≠ tree.target target → after.openFile target = .ok file)) ∧
      Replaceable tree (tree.target target) ∧ Grows (· = tree.target target) tree after := by
  obtain ⟨_, middle, first, done⟩ := run_bind_ok _ _ tree after count copied
  cases done
  exact ⟨rfl, copy_ok tree after free source target (during_ok _ _ tree after () first)⟩

structure Stages (registry : Registry) (deployment : Deployment) (source output : String)
    (tree made paged placed final : FileTree) : Prop where
  prepared : Grows Untouched tree made
  apart : made.isDirectory source = true →
    ∃ a b, made.locate source = .ok a ∧ made.locate output = .ok b ∧ ¬ a <:+ b ∧ ¬ b <:+ a
  index : (placePage (indexPath output) ((Selection.start registry deployment).page none).1.render).run made =
    (.ok (), paged)
  samples : ∃ paths,
    (placeSamples output ((Selection.start registry deployment).page none).2 registry.entries).run paged =
      (.ok paths, placed)
  assets : placed.isDirectory source = true ∧
      (∃ count, (copyBelow source depthLimit [] source (join output "")).run placed = (.ok count, final)) ∨
    placed.isDirectory source = false ∧ final = placed

theorem check_overlap_ok (tree after : FileTree) (source output : String)
    (checked : (checkOverlap source output).run tree = (.ok (), after)) :
    after = tree ∧ (tree.isDirectory source = true →
      ∃ a b, tree.locate source = .ok a ∧ tree.locate output = .ok b ∧ ¬ a <:+ b ∧ ¬ b <:+ a) := by
  change (if tree.isDirectory source = true then refuseOverlap source output else pure ()).run tree = _ at checked
  by_cases directory : tree.isDirectory source = true
  · rw [if_pos directory] at checked
    obtain ⟨same, apart⟩ := refuse_overlap_ok tree after source output checked
    exact ⟨same, fun _ => apart⟩
  · rw [if_neg directory] at checked
    cases checked
    exact ⟨rfl, fun present => absurd present directory⟩

theorem check_overlap_run (tree : FileTree) (source output : String) (a b : Location)
    (sourceAt : tree.locate source = .ok a) (outputAt : tree.locate output = .ok b)
    (apart : (isWithin b a || isWithin a b) = false) :
    (checkOverlap source output).run tree = (.ok (), tree) := by
  have refused : (refuseOverlap source output).run tree = (.ok (), tree) := by
    rw [refuseOverlap, run_get]
    refine (run_bind_value (attempt _ (tree.locate source)) _ tree tree a (attempt_run _ tree _ a sourceAt)).trans ?_
    refine (run_bind_value (attempt _ (tree.locate output)) _ tree tree b (attempt_run _ tree _ b outputAt)).trans ?_
    rw [apart]
    rfl
  change (if tree.isDirectory source = true then refuseOverlap source output else pure ()).run tree = _
  split
  · exact refused
  · rfl

theorem copy_assets_ok (tree after : FileTree) (source output : String) (count : Nat)
    (copied : (copyAssets source output).run tree = (.ok count, after)) :
    tree.isDirectory source = true ∧
        (copyBelow source depthLimit [] source (join output "")).run tree = (.ok count, after) ∨
      tree.isDirectory source = false ∧ after = tree ∧ count = 0 := by
  change (if tree.isDirectory source = true then copyBelow source depthLimit [] source (join output "")
    else pure 0).run tree = _ at copied
  by_cases directory : tree.isDirectory source = true
  · rw [if_pos directory] at copied
    exact .inl ⟨directory, copied⟩
  · rw [if_neg directory] at copied
    cases copied
    exact .inr ⟨by simpa using directory, rfl, rfl⟩

def copyChild (root : String) (depth : Nat) (trail : List Location) (source target : String) :
    Name × Node → Effect Failure Nat
  | (name, .file _) => copyFile (join source name.text) (join target name.text)
  | (name, .directory) => copyBelow root depth trail (join source name.text) (join target name.text)
  | (name, .link _) => do
    let tree ← get
    let found ← attempt (fun fault => walking root [.walkFault, .io fault]) (tree.inspect (join source name.text))
    if found.2 ≠ .directory then copyFile (join source name.text) (join target name.text)
    else if trail.contains found.1 then throw (walking root [.walkLoop])
    else copyBelow root depth trail (join source name.text) (join target name.text)

def tally {α : Type} (work : α → Effect Failure Nat) (items : List α) (count : Nat) : Effect Failure Nat :=
  items.foldlM (fun count item => work item >>= fun more => pure (count + more)) count

theorem tally_cons {α : Type} (work : α → Effect Failure Nat) (item : α) (rest : List α) (count total : Nat)
    (tree after : FileTree) (done : (tally work (item :: rest) count).run tree = (.ok total, after)) :
    ∃ more middle, (work item).run tree = (.ok more, middle) ∧
      (tally work rest (count + more)).run middle = (.ok total, after) := by
  rw [tally, List.foldlM_cons] at done
  obtain ⟨next, middle, first, later⟩ := run_bind_ok _ _ tree after total done
  obtain ⟨more, worked, ran, added⟩ := run_bind_ok (work item) _ tree middle next first
  cases added
  exact ⟨more, middle, ran, later⟩

theorem copy_below_run (root : String) (depth : Nat) (trail : List Location) (source target : String)
    (tree made : FileTree) (location : Location) (ensured : (ensureDirectories target).run tree = (.ok (), made))
    (inspected : made.inspect source = .ok (location, .directory)) :
    (copyBelow root (depth + 1) trail source target).run tree =
      (tally (copyChild root depth (location :: trail) source target) (made.children location) 0).run made := by
  have located := ((inspect_ok_iff made source location _).mp inspected).1
  have listed : made.list source = .ok (made.children location) :=
    (list_ok_iff made source _).mpr ⟨location, inspected, rfl⟩
  rw [copyBelow]
  refine (run_bind_value _ _ tree made () (during_run _ _ tree made () ensured)).trans ?_
  rw [run_get]
  refine (run_bind_value (attempt _ (made.locate source)) _ made made location
    (attempt_run _ made _ location located)).trans ?_
  rw [run_get]
  refine (run_bind_value (attempt _ (made.list source)) _ made made _ (attempt_run _ made _ _ listed)).trans ?_
  refine congrArg (fun step : Nat → Name × Node → Effect Failure Nat =>
    ((made.children location).foldlM step 0).run made) ?_
  funext copied child
  obtain ⟨name, node⟩ := child
  cases node with
  | file file => rfl
  | directory => rfl
  | link linked =>
      simp only [copyChild, bind_assoc]
      congr 1
      funext before
      congr 1
      funext found
      obtain ⟨goal, shown⟩ := found
      cases shown with
      | file file => rfl
      | link target => rfl
      | directory =>
          by_cases loop : goal ∈ location :: trail <;> simp [loop]

theorem copy_below_parts (root : String) (depth : Nat) (trail : List Location) (source target : String)
    (tree after : FileTree) (count : Nat)
    (copied : (copyBelow root (depth + 1) trail source target).run tree = (.ok count, after)) :
    ∃ made location, (ensureDirectories target).run tree = (.ok (), made) ∧
      made.inspect source = .ok (location, .directory) ∧
      (tally (copyChild root depth (location :: trail) source target) (made.children location) 0).run made =
        (.ok count, after) := by
  have whole := copied
  rw [copyBelow] at copied
  obtain ⟨_, made, making, locating⟩ := run_bind_ok _ _ tree after count copied
  have ensured := during_ok _ _ tree made _ making
  rw [run_get] at locating
  obtain ⟨here, located, first, listing⟩ := run_bind_ok (attempt _ (made.locate source)) _ made after count locating
  obtain ⟨_, rfl⟩ := attempt_ok _ _ made located here first
  rw [run_get] at listing
  obtain ⟨children, listed, second, _⟩ := run_bind_ok (attempt _ (located.list source)) _ located after count listing
  obtain ⟨location, inspected, _⟩ := (list_ok_iff located _ children).mp (attempt_ok _ _ located listed children second).1
  refine ⟨located, location, ensured, inspected, ?_⟩
  rw [← copy_below_run root depth trail source target tree located location ensured inspected]
  exact whole

theorem copy_assets_empty (tree : FileTree) (free : LinkFree tree) (source output : String)
    (directory : tree.isDirectory source = true) (empty : ∀ name, tree.get? (name :: tree.target source) = none)
    (present : tree.isDirectory (join output "") = true) : (copyAssets source output).run tree = (.ok 0, tree) := by
  obtain ⟨location, inspected⟩ := (is_directory_iff tree source).mp directory
  have childless : tree.children location = [] := by
    rw [List.eq_nil_iff_forall_not_mem]
    rintro ⟨name, node⟩ child
    rw [child_iff, (inspect_target free source location _ inspected).1, empty] at child
    cases child
  have made := ensure_existing tree free (join output "") present
  change (if tree.isDirectory source = true then copyBelow source depthLimit [] source (join output "")
    else pure 0).run tree = _
  rw [if_pos directory, show depthLimit = 4095 + 1 from rfl, copy_below_run _ _ _ _ _ tree tree location made inspected,
    childless]
  rfl

theorem run_stages (registry : Registry) (deployment : Deployment) (source output : String) (tree final : FileTree)
    (report : Report) (exported : (run registry deployment source output).run tree = (.ok report, final)) :
    ∃ made paged placed paths count, (ensureDirectories output).run tree = (.ok (), made) ∧
      (checkOverlap source output).run made = (.ok (), made) ∧
      (placePage (indexPath output) ((Selection.start registry deployment).page none).1.render).run made =
        (.ok (), paged) ∧
      (placeSamples output ((Selection.start registry deployment).page none).2 registry.entries).run paged =
        (.ok paths, placed) ∧
      (copyAssets source output).run placed = (.ok count, final) ∧ report = ⟨indexPath output :: paths, count⟩ := by
  obtain ⟨_, made, ensured, checking⟩ := run_bind_ok _ _ tree final report exported
  obtain ⟨_, checked, first, placing⟩ := run_bind_ok _ _ made final report checking
  obtain ⟨rfl, _⟩ := check_overlap_ok made checked source output first
  obtain ⟨_, paged, index, sampling⟩ := run_bind_ok
    (placePage (indexPath output) ((Selection.start registry deployment).page none).1.render) _ checked final report
    placing
  obtain ⟨paths, placed, samples, copying⟩ := run_bind_ok
    (placeSamples output ((Selection.start registry deployment).page none).2 registry.entries) _ paged final report
    sampling
  obtain ⟨count, copied, last, done⟩ := run_bind_ok (copyAssets source output) _ placed final report copying
  cases done
  exact ⟨checked, paged, placed, paths, count, during_ok _ _ tree checked () ensured, first, index, samples, last, rfl⟩

theorem run_ok (registry : Registry) (deployment : Deployment) (source output : String) (tree final : FileTree)
    (report : Report) (exported : (run registry deployment source output).run tree = (.ok report, final)) :
    ∃ made paged placed, Stages registry deployment source output tree made paged placed final := by
  obtain ⟨made, paged, placed, paths, count, ensured, checked, index, samples, copied, _⟩ :=
    run_stages registry deployment source output tree final report exported
  have prepared := ensure_directories_growing output tree
  rw [ensured] at prepared
  refine ⟨made, paged, placed, prepared, (check_overlap_ok made made source output checked).2, index, ⟨paths, samples⟩, ?_⟩
  rcases copy_assets_ok placed final source output count copied with ⟨present, run⟩ | ⟨missing, same, _⟩
  · exact .inl ⟨present, count, run⟩
  · exact .inr ⟨missing, same⟩

theorem run_parts (registry : Registry) (deployment : Deployment) (source output : String)
    (tree made paged placed final : FileTree) (paths : List String) (count : Nat)
    (ensured : (ensureDirectories output).run tree = (.ok (), made))
    (checked : (checkOverlap source output).run made = (.ok (), made))
    (index : (placePage (indexPath output) ((Selection.start registry deployment).page none).1.render).run made =
      (.ok (), paged))
    (samples : (placeSamples output ((Selection.start registry deployment).page none).2 registry.entries).run paged =
      (.ok paths, placed))
    (copied : (copyAssets source output).run placed = (.ok count, final)) :
    (run registry deployment source output).run tree = (.ok ⟨indexPath output :: paths, count⟩, final) := by
  refine (run_bind_value _ _ tree made () (during_run _ _ tree made () ensured)).trans ?_
  refine (run_bind_value _ _ made made () checked).trans ?_
  refine (run_bind_value (placePage (indexPath output) ((Selection.start registry deployment).page none).1.render)
    _ made paged () index).trans ?_
  refine (run_bind_value (placeSamples output ((Selection.start registry deployment).page none).2 registry.entries)
    _ paged placed paths samples).trans ?_
  exact run_bind_value (copyAssets source output) _ placed final count copied

end Export

end Showcase
