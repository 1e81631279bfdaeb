import Showcase.Proofs.Registry
import Showcase.Selection.Run
/-!
Selections against a specification without a kept view. What is shown depends on the history of requests alone, and
every answer is the one computed from the registry, the deployment and the entry shown at that time.
-/
set_option autoImplicit false

namespace Showcase

def plainNav (registry : Registry) (deployment : Deployment) (shown : SampleEntry) : List NavItem :=
  registry.entries.map fun entry =>
    { id := entry.id
      title := entry.title
      href := deployment.resolve entry.id.pagePath
      active := decide (entry.id = shown.id) }

def plainPage (registry : Registry) (deployment : Deployment) (shown : SampleEntry) (notice : Option String) : Page where
  view := View.ofEntry registry deployment shown
  nav := plainNav registry deployment shown
  notice
  extension := registry.rule.extension
  folder := registry.rule.folder

namespace Selection

def after (selection : Selection) (steps : List Step) : Selection :=
  steps.foldl (fun current next => (current.step next).2) selection

def requested? (registry : Registry) : Step → Option SampleEntry
  | .select id => registry.entries.find? fun entry => entry.id.text = id
  | _ => none

def shownAfter (registry : Registry) (steps : List Step) : SampleEntry :=
  (steps.filterMap (requested? registry)).getLast?.getD registry.first

def isMove (registry : Registry) (before : List Step) (next : Step) : Bool :=
  (requested? registry next).any fun entry => entry.id ≠ (shownAfter registry before).id

def moves (registry : Registry) (steps : List Step) : Nat :=
  steps.zipIdx.countP fun (next, n) => isMove registry (steps.take n) next

def plainAnswer (registry : Registry) (deployment : Deployment) (shown : SampleEntry) : Step → Answer
  | .select id =>
      match requested? registry (.select id) with
      | none => .rejected (.unknownSample id)
      | some entry => if entry.id = shown.id then .moved .unchanged else .moved (.changed shown.id entry.id)
  | .view => .view (View.ofEntry registry deployment shown)
  | .nav => .nav (plainNav registry deployment shown)
  | .entry => .entry shown
  | .basePath => .basePath deployment.basePath
  | .size => .size registry.entries.length
  | .page notice => .page (plainPage registry deployment shown notice)

def plainAnswers (registry : Registry) (deployment : Deployment) (steps : List Step) : List Answer :=
  steps.zipIdx.map fun (next, n) => plainAnswer registry deployment (shownAfter registry (steps.take n)) next

theorem shown_after_append (registry : Registry) (before : List Step) (next : Step) :
    shownAfter registry (before ++ [next]) = (requested? registry next).getD (shownAfter registry before) := by
  cases asked : requested? registry next with
  | none => simp [shownAfter, asked]
  | some entry => simp [shownAfter, asked]

theorem moves_append (registry : Registry) (before : List Step) (next : Step) :
    moves registry (before ++ [next]) = moves registry before + if isMove registry before next then 1 else 0 := by
  have earlier : before.zipIdx.countP (fun (step, n) => isMove registry ((before ++ [next]).take n) step) =
      before.zipIdx.countP (fun (step, n) => isMove registry (before.take n) step) := by
    apply List.countP_congr
    rintro ⟨step, n⟩ member
    have bound : n < before.length := by simpa using List.snd_lt_of_mem_zipIdx member
    dsimp only
    rw [List.take_append_of_le_length (by omega)]
  simp [moves, List.zipIdx_append, List.countP_append, earlier]

theorem moves_le_length (registry : Registry) (steps : List Step) : moves registry steps ≤ steps.length := by
  have bound := List.countP_le_length (p := fun (next, n) => isMove registry (steps.take n) next) (l := steps.zipIdx)
  rw [List.length_zipIdx] at bound
  exact bound

/-- A kept view is the one that would be computed now. -/
def Coherent (selection : Selection) : Prop := ∀ view, selection.cached = some view → view = selection.freshView

theorem view_coherent (selection : Selection) (coherent : Coherent selection) :
    selection.view.1 = selection.freshView ∧ Coherent selection.view.2 := by
  unfold view
  cases kept : selection.cached with
  | none =>
      refine ⟨rfl, ?_⟩
      intro view same
      exact (Option.some.inj same).symm
  | some view => exact ⟨coherent view kept, coherent⟩

theorem view_frame (selection : Selection) : ∃ cached, selection.view.2 = { selection with cached } := by
  unfold view
  cases kept : selection.cached with
  | none => exact ⟨_, rfl⟩
  | some view => exact ⟨selection.cached, rfl⟩

theorem page_frame (selection : Selection) (coherent : Coherent selection) (notice : Option String) :
    (selection.page notice).2.registry = selection.registry ∧
      (selection.page notice).2.deployment = selection.deployment ∧ Coherent (selection.page notice).2 := by
  change selection.view.2.registry = _ ∧ selection.view.2.deployment = _ ∧ Coherent selection.view.2
  have kept := (view_coherent selection coherent).2
  obtain ⟨cached, same⟩ := view_frame selection
  rw [same] at kept ⊢
  exact ⟨rfl, rfl, kept⟩

theorem select_absent (selection : Selection) (id : String) (absent : selection.registry.position? id = none) :
    selection.select id = .error (.unknownSample id) := by
  rw [select, absent]

theorem select_same (selection : Selection) (id : String)
    (found : selection.registry.position? id = some selection.active) :
    selection.select id = .ok (.unchanged, selection) := by
  rw [select, found]
  exact if_pos rfl

theorem select_other (selection : Selection) (id : String) (position : Fin selection.registry.entries.length)
    (found : selection.registry.position? id = some position) (different : position ≠ selection.active) :
    selection.select id = .ok (.changed selection.activeId (selection.registry.entryAt position).id,
      { selection with
        active := position, cached := none, generation := (selection.generation + 1) % generationLimit }) := by
  rw [select, found]
  exact if_neg different

theorem active_entry_mem (selection : Selection) : selection.activeEntry ∈ selection.registry.entries :=
  List.get_mem selection.registry.entries selection.active

section Built

variable {entries : List SampleEntry} {rule : ArtifactRule} {registry : Registry}

theorem nav_plain (built : Registry.ofEntries entries rule = .ok registry) (deployment : Deployment)
    (active : Fin registry.entries.length) :
    NavItem.all registry deployment active = plainNav registry deployment (registry.entryAt active) := by
  have listed := List.map_get_finRange registry.entries
  unfold NavItem.all plainNav
  conv => rhs; rw [← listed]
  rw [List.map_map]
  apply List.map_congr_left
  intro position _
  have same : (position == active) = decide ((registry.entryAt position).id = (registry.entryAt active).id) := by
    rw [beq_eq_decide, decide_eq_decide]
    exact ⟨fun equal => by rw [equal], Registry.entry_id_injective built position active⟩
  simp only [Function.comp, same]
  rfl

theorem page_plain (built : Registry.ofEntries entries rule = .ok registry) (selection : Selection)
    (owned : selection.registry = registry) (coherent : Coherent selection) (notice : Option String) :
    (selection.page notice).1 = plainPage registry selection.deployment selection.activeEntry notice := by
  subst owned
  have viewed := (view_coherent selection coherent).1
  unfold page plainPage
  simp only [viewed, nav, nav_plain built selection.deployment selection.active]
  rfl

theorem select_entry (built : Registry.ofEntries entries rule = .ok registry) (selection : Selection)
    (owned : selection.registry = registry) (coherent : Coherent selection) (entry : SampleEntry)
    (member : entry ∈ registry.entries) :
    ∃ outcome moved, selection.select entry.id.text = .ok (outcome, moved) ∧ moved.registry = registry ∧
      moved.deployment = selection.deployment ∧ moved.activeEntry = entry ∧ Coherent moved := by
  subst owned
  obtain ⟨position, here⟩ := List.get_of_mem member
  have found : selection.registry.position? entry.id.text = some position := by
    rw [← here]
    exact Registry.position_of_entry built position
  by_cases same : position = selection.active
  · rw [same] at found here
    exact ⟨_, selection, select_same selection _ found, rfl, rfl, here, coherent⟩
  · refine ⟨_, _, select_other selection _ position found same, rfl, rfl, here, ?_⟩
    intro view kept
    cases kept

structure Tracks (registry : Registry) (deployment : Deployment) (history : List Step) (selection : Selection) :
    Prop where
  sameRegistry : selection.registry = registry
  sameDeployment : selection.deployment = deployment
  shown : selection.activeEntry = shownAfter registry history
  counted : selection.generation = moves registry history % generationLimit
  coherent : Coherent selection

theorem start_tracks (registry : Registry) (deployment : Deployment) :
    Tracks registry deployment [] (start registry deployment) := by
  refine ⟨rfl, rfl, rfl, rfl, ?_⟩
  intro view kept
  cases kept

theorem idle_tracks (registry : Registry) (deployment : Deployment) (history : List Step) (next : Step)
    (selection : Selection) (tracks : Tracks registry deployment history selection)
    (idle : requested? registry next = none) : Tracks registry deployment (history ++ [next]) selection := by
  refine ⟨tracks.sameRegistry, tracks.sameDeployment, ?_, ?_, tracks.coherent⟩
  · rw [shown_after_append, idle]
    exact tracks.shown
  · rw [moves_append, isMove, idle]
    exact tracks.counted

theorem view_tracks (registry : Registry) (deployment : Deployment) (history : List Step) (selection : Selection)
    (tracks : Tracks registry deployment history selection) :
    Tracks registry deployment history selection.view.2 := by
  have coherent := (view_coherent selection tracks.coherent).2
  obtain ⟨cached, same⟩ := view_frame selection
  rw [same] at coherent ⊢
  exact ⟨tracks.sameRegistry, tracks.sameDeployment, tracks.shown, tracks.counted, coherent⟩

theorem viewed_tracks (registry : Registry) (deployment : Deployment) (history : List Step) (selection : Selection)
    (tracks : Tracks registry deployment history selection) :
    selection.view.1 = View.ofEntry registry deployment selection.activeEntry := by
  rw [(view_coherent selection tracks.coherent).1, freshView, tracks.sameRegistry, tracks.sameDeployment]

theorem nav_tracks (built : Registry.ofEntries entries rule = .ok registry) (deployment : Deployment)
    (history : List Step) (selection : Selection) (tracks : Tracks registry deployment history selection) :
    selection.nav = plainNav registry deployment selection.activeEntry := by
  obtain ⟨owned, deployment', active, cached, generation⟩ := selection
  obtain ⟨rfl, rfl, _, _, _⟩ := tracks
  exact nav_plain built deployment' active

theorem requested_find (built : Registry.ofEntries entries rule = .ok registry) (id : String) :
    requested? registry (.select id) = (registry.position? id).map registry.entryAt :=
  Registry.scan_eq_find built id

theorem select_tracks (built : Registry.ofEntries entries rule = .ok registry) (deployment : Deployment)
    (history : List Step) (id : String) (selection : Selection)
    (tracks : Tracks registry deployment history selection) :
    (selection.step (.select id)).1 = plainAnswer registry deployment (shownAfter registry history) (.select id) ∧
      Tracks registry deployment (history ++ [.select id]) (selection.step (.select id)).2 := by
  obtain ⟨owned, deployment', active, cached, generation⟩ := selection
  obtain ⟨rfl, rfl, shown, counted, coherent⟩ := tracks
  have asked := requested_find built id
  cases found : owned.position? id with
  | none =>
      rw [found, Option.map_none] at asked
      simp only [step, select, found, plainAnswer, asked, true_and]
      exact idle_tracks _ _ history _ _ ⟨rfl, rfl, shown, counted, coherent⟩ asked
  | some position =>
      rw [found, Option.map_some] at asked
      have shownId : (owned.entryAt active).id = (shownAfter owned history).id := congrArg SampleEntry.id shown
      by_cases same : position = active
      · subst same
        simp only [step, select, found, plainAnswer, asked, shownId, if_true, true_and]
        refine ⟨rfl, rfl, ?_, ?_, coherent⟩
        · rw [shown_after_append, asked]
          rfl
        · rw [moves_append, isMove, asked]
          simpa [shownId] using counted
      · have different : (owned.entryAt position).id ≠ (shownAfter owned history).id := by
          intro equal
          exact same (Registry.entry_id_injective built position active (equal.trans shownId.symm))
        simp only [step, select, found, if_neg same, plainAnswer, asked, if_neg different]
        refine ⟨?_, rfl, rfl, ?_, ?_, ?_⟩
        · rw [← shownId]
          rfl
        · rw [shown_after_append, asked]
          rfl
        · have moved : isMove owned history (.select id) = true := by simpa [isMove, asked] using different
          dsimp only at counted ⊢
          rw [moves_append, if_pos moved, counted, Nat.mod_add_mod]
        · intro view kept
          cases kept

theorem step_tracks (built : Registry.ofEntries entries rule = .ok registry) (deployment : Deployment)
    (history : List Step) (next : Step) (selection : Selection)
    (tracks : Tracks registry deployment history selection) :
    (selection.step next).1 = plainAnswer registry deployment (shownAfter registry history) next ∧
      Tracks registry deployment (history ++ [next]) (selection.step next).2 := by
  have viewed := viewed_tracks registry deployment history selection tracks
  have paged := page_plain built selection tracks.sameRegistry tracks.coherent
  have reading := view_tracks registry deployment history selection tracks
  cases next with
  | select id => exact select_tracks built deployment history id selection tracks
  | view =>
      refine ⟨?_, idle_tracks _ _ history _ _ reading rfl⟩
      change Answer.view selection.view.1 = _
      rw [plainAnswer, viewed, tracks.shown]
  | nav =>
      refine ⟨?_, idle_tracks _ _ history _ _ tracks rfl⟩
      rw [step, plainAnswer, nav_tracks built deployment history selection tracks, tracks.shown]
  | entry =>
      refine ⟨?_, idle_tracks _ _ history _ _ tracks rfl⟩
      rw [step, plainAnswer, tracks.shown]
  | basePath =>
      refine ⟨?_, idle_tracks _ _ history _ _ tracks rfl⟩
      rw [step, plainAnswer, tracks.sameDeployment]
  | size =>
      refine ⟨?_, idle_tracks _ _ history _ _ tracks rfl⟩
      rw [step, plainAnswer, tracks.sameRegistry, Registry.size]
  | page notice =>
      refine ⟨?_, idle_tracks _ _ history _ _ reading rfl⟩
      change Answer.page (selection.page notice).1 = _
      rw [plainAnswer, paged notice, tracks.sameDeployment, tracks.shown]

theorem run_tracks (built : Registry.ofEntries entries rule = .ok registry) (deployment : Deployment)
    (history rest : List Step) (selection : Selection) (tracks : Tracks registry deployment history selection) :
    (selection.run rest).map Prod.fst = (rest.zipIdx history.length).map (fun (next, n) =>
        plainAnswer registry deployment (shownAfter registry ((history ++ rest).take n)) next) ∧
      Tracks registry deployment (history ++ rest) (selection.after rest) := by
  induction rest generalizing history selection with
  | nil => exact ⟨rfl, by simpa [after] using tracks⟩
  | cons next rest ih =>
      obtain ⟨answered, stepped⟩ := step_tracks built deployment history next selection tracks
      obtain ⟨answers, final⟩ := ih (history ++ [next]) (selection.step next).2 stepped
      rw [List.append_assoc, List.singleton_append] at answers final
      refine ⟨?_, final⟩
      rw [List.length_append, List.length_singleton] at answers
      rw [run, List.map_cons, List.zipIdx_cons, List.map_cons, answers]
      simp only [List.take_left, answered]

theorem after_tracks (built : Registry.ofEntries entries rule = .ok registry) (deployment : Deployment)
    (steps : List Step) : Tracks registry deployment steps ((start registry deployment).after steps) :=
  (run_tracks built deployment [] steps _ (start_tracks registry deployment)).2

theorem run_append (selection : Selection) (before rest : List Step) :
    selection.run (before ++ rest) = selection.run before ++ (selection.after before).run rest := by
  induction before generalizing selection with
  | nil => rfl
  | cons next before ih => simp [run, after, ih]

theorem after_append (selection : Selection) (before rest : List Step) :
    selection.after (before ++ rest) = (selection.after before).after rest := List.foldl_append

theorem step_unknown (built : Registry.ofEntries entries rule = .ok registry) (selection : Selection)
    (owned : selection.registry = registry) (id : String) (unknown : ∀ entry ∈ registry.entries, entry.id.text ≠ id) :
    selection.step (.select id) = (.rejected (.unknownSample id), selection) := by
  have absent : registry.position? id = none := by
    rw [Registry.position_none_iff built]
    intro member
    obtain ⟨entry, inside, same⟩ := List.mem_map.mp member
    exact unknown entry inside same
  subst owned
  rw [step, select_absent selection id absent]

theorem run_refines_plain (built : Registry.ofEntries entries rule = .ok registry) (deployment : Deployment)
    (steps : List Step) (short : steps.length < generationLimit) :
    ((start registry deployment).after steps).activeEntry = shownAfter registry steps ∧
    ((start registry deployment).after steps).generation = moves registry steps ∧
    ((start registry deployment).run steps).map Prod.fst = plainAnswers registry deployment steps ∧
    ∀ before id rest, steps = before ++ .select id :: rest → (∀ entry ∈ registry.entries, entry.id.text ≠ id) →
      (start registry deployment).after steps = (start registry deployment).after (before ++ rest) ∧
      (start registry deployment).run steps =
        (start registry deployment).run before ++
          (.rejected (.unknownSample id), (start registry deployment).after before) ::
            ((start registry deployment).after before).run rest ∧
      (start registry deployment).run (before ++ rest) =
        (start registry deployment).run before ++ ((start registry deployment).after before).run rest := by
  have initial := start_tracks registry deployment
  obtain ⟨answers, final⟩ := run_tracks built deployment [] steps _ initial
  have counted : ((start registry deployment).after steps).generation = moves registry steps := by
    have bound := moves_le_length registry steps
    rw [final.counted]
    exact Nat.mod_eq_of_lt (by simpa using Nat.lt_of_le_of_lt bound short)
  refine ⟨final.shown, counted, answers, ?_⟩
  intro before id rest split unknown
  have reached := after_tracks built deployment before
  have refused := step_unknown built _ reached.sameRegistry id unknown
  refine ⟨?_, ?_, run_append _ before rest⟩
  · rw [split, after_append, after_append, after, List.foldl_cons, refused]
    rfl
  · rw [split, run_append, run, refused]

end Built

theorem run_refines_plain_builtin : ∃ registry, Registry.ofEntries Catalog.builtinSamples {} = .ok registry ∧
    let steps := [.view, .select "test3", .select "test3", .page none, .select "nope", .select "test1", .select "test2"]
    let final := (start registry Deployment.root).after steps
    steps.length < generationLimit ∧ final.activeId.text = "test2" ∧ final.generation = 3 ∧
      ((start registry Deployment.root).run steps).map Prod.fst = plainAnswers registry Deployment.root steps ∧
      final = (start registry Deployment.root).after
        [.view, .select "test3", .select "test3", .page none, .select "test1", .select "test2"] := by
  obtain ⟨registry, built⟩ := Registry.builtin_ok
  have short : [Step.view, .select "test3", .select "test3", .page none, .select "nope", .select "test1",
      .select "test2"].length < generationLimit := by decide
  obtain ⟨shown, counted, answers, ignored⟩ := run_refines_plain built Deployment.root _ short
  obtain ⟨nonempty, index, _, _, rfl⟩ := Registry.of_entries_cases built
  refine ⟨_, built, short, ?_, counted, answers, ?_⟩
  · rw [activeId, shown]
    rfl
  · exact (ignored [.view, .select "test3", .select "test3", .page none] "nope" [.select "test1", .select "test2"]
      rfl (show ∀ entry ∈ Catalog.builtinSamples, entry.id.text ≠ "nope" by decide)).1

end Selection

end Showcase
