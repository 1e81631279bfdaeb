import Showcase.Export
import Showcase.Proofs.Selection
import Showcase.Proofs.Artifact
import Showcase.Server.Site
/-!
Slashes around the artifact directory. A registry does what the one with the slashes taken off does, in every selection,
server and export, so two registries that differ in nothing else cannot be told apart.
-/
set_option autoImplicit false

namespace Showcase

namespace Text

def slashes (count : Nat) : String := String.ofList (List.replicate count '/')

theorem slashes_members (count : Nat) : ∀ c ∈ (slashes count).toList, isSlash c = true := by
  intro c member
  rw [slashes, String.toList_ofList] at member
  rw [List.eq_of_mem_replicate member]
  rfl

theorem trim_padded (p : Char → Bool) (front text back : List Char) (before : ∀ c ∈ front, p c = true)
    (behind : ∀ c ∈ back, p c = true) : trim p (front ++ text ++ back) = trim p text := by
  have gone : back.dropWhile p = [] := List.dropWhile_eq_nil_iff.mpr behind
  rw [trim, trimStart, List.append_assoc, List.dropWhile_append_of_pos before, List.dropWhile_append, gone]
  by_cases empty : (text.dropWhile p).isEmpty = true
  · rw [if_pos empty, trim, trimStart, List.isEmpty_iff.mp empty]
  · rw [if_neg empty, trim_end_append p _ back behind]
    rfl

theorem trim_slashes_padded (front back : Nat) (text : String) :
    trimSlashes (slashes front ++ text ++ slashes back) = trimSlashes text := by
  rw [trimSlashes, String.toList_append, String.toList_append,
    trim_padded isSlash _ _ _ (slashes_members front) (slashes_members back)]
  rfl

theorem trim_idempotent (p : Char → Bool) (text : List Char) : trim p (trim p text) = trim p text := by
  have front : trimStart p (trim p text) = trim p text := by
    cases cut : trim p text with
    | nil => rfl
    | cons c rest =>
        have kept := trim_head p text c (by rw [cut]; rfl)
        rw [trimStart, List.dropWhile_cons, kept]
        rfl
  calc trim p (trim p text) = trimEnd p (trimStart p (trim p text)) := rfl
    _ = trimEnd p (trim p text) := by rw [front]
    _ = trim p text := trim_end_idempotent p _

end Text

def ArtifactRule.trimmed (rule : ArtifactRule) : ArtifactRule := { rule with directory := rule.folder }

namespace ArtifactRule

theorem folder_trimmed (rule : ArtifactRule) : rule.trimmed.folder = rule.folder := by
  rw [folder, trimmed, Text.trimSlashes, folder, Text.trimSlashes, String.toList_ofList, Text.trim_idempotent]

theorem extension_trimmed (rule : ArtifactRule) : rule.trimmed.extension = rule.extension := by
  rw [trimmed]

-- Unification would otherwise trim texts to compare a rule with its trimmed form.
attribute [irreducible] trimmed

theorem file_name_trimmed (rule : ArtifactRule) (id : SampleId) : rule.trimmed.fileName id = rule.fileName id := by
  rw [fileName, extension_trimmed, fileName]

theorem relative_path_trimmed (rule : ArtifactRule) (id : SampleId) :
    rule.trimmed.relativePath id = rule.relativePath id := by
  rw [relativePath, folder_trimmed, file_name_trimmed, relativePath]

end ArtifactRule

def Registry.trimmed (registry : Registry) : Registry := { registry with rule := registry.rule.trimmed }

theorem view_of_entry_trimmed (registry : Registry) (deployment : Deployment) (entry : SampleEntry) :
    View.ofEntry registry.trimmed deployment entry = View.ofEntry registry deployment entry := by
  have path : registry.trimmed.artifactPath entry = registry.artifactPath entry :=
    registry.rule.relative_path_trimmed entry.id
  have label : registry.trimmed.downloadLabel entry = registry.downloadLabel entry :=
    registry.rule.file_name_trimmed entry.id
  rw [View.ofEntry, path, label, View.ofEntry]

namespace Selection

def trimmed (selection : Selection) : Selection where
  registry := selection.registry.trimmed
  deployment := selection.deployment
  active := selection.active
  cached := selection.cached
  generation := selection.generation

theorem view_trimmed (selection : Selection) :
    selection.trimmed.view = (selection.view.1, selection.view.2.trimmed) := by
  have fresh : selection.trimmed.freshView = selection.freshView :=
    view_of_entry_trimmed selection.registry selection.deployment selection.activeEntry
  unfold view
  cases kept : selection.cached with
  | none =>
      rw [show selection.trimmed.cached = none from kept]
      dsimp only
      rw [fresh]
      rfl
  | some view =>
      rw [show selection.trimmed.cached = some view from kept]

theorem page_trimmed (selection : Selection) (notice : Option String) :
    selection.trimmed.page notice = ((selection.page notice).1, (selection.page notice).2.trimmed) := by
  have folder : selection.trimmed.registry.rule.folder = selection.registry.rule.folder :=
    selection.registry.rule.folder_trimmed
  have extension : selection.trimmed.registry.rule.extension = selection.registry.rule.extension :=
    selection.registry.rule.extension_trimmed
  rw [page, view_trimmed, folder, extension]
  rfl

theorem select_trimmed (selection : Selection) (id : String) :
    selection.trimmed.select id = (selection.select id).map fun (outcome, moved) => (outcome, moved.trimmed) := by
  cases found : selection.registry.position? id with
  | none =>
      rw [select_absent selection id found, select_absent selection.trimmed id found]
      rfl
  | some position =>
      by_cases same : position = selection.active
      · rw [same] at found
        rw [select_same selection id found, select_same selection.trimmed id found]
        rfl
      · rw [select_other selection id position found same, select_other selection.trimmed id position found same]
        rfl

theorem step_trimmed (selection : Selection) (next : Step) :
    selection.trimmed.step next = ((selection.step next).1, (selection.step next).2.trimmed) := by
  cases next with
  | select id =>
      rw [step, select_trimmed, step]
      cases selection.select id <;> rfl
  | view =>
      rw [step, view_trimmed]
      rfl
  | page notice =>
      rw [step, page_trimmed]
      rfl
  | nav => rfl
  | entry => rfl
  | basePath => rfl
  | size => rfl

theorem run_trimmed (selection : Selection) (steps : List Step) :
    selection.trimmed.run steps = (selection.run steps).map fun (answer, after) => (answer, after.trimmed) := by
  induction steps generalizing selection with
  | nil => rfl
  | cons next rest ih =>
      rw [run, step_trimmed]
      dsimp only
      rw [ih, run, List.map_cons]

theorem after_trimmed (selection : Selection) (steps : List Step) :
    selection.trimmed.after steps = (selection.after steps).trimmed := by
  induction steps generalizing selection with
  | nil => rfl
  | cons next rest ih =>
      rw [after, List.foldl_cons, step_trimmed, ← after, ih]
      rfl

end Selection

namespace Server

theorem ensure_folder_free_trimmed (registry : Registry) :
    ensureFolderFree registry.trimmed = ensureFolderFree registry := by
  rw [ensureFolderFree, Registry.trimmed, ArtifactRule.folder_trimmed]
  rfl

theorem Router.build_trimmed (registry : Registry) (deployment : Deployment) :
    Router.build registry.trimmed deployment = Router.build registry deployment := by
  have routes : Router.routes registry.trimmed deployment = Router.routes registry deployment := by
    rw [Router.routes, Registry.trimmed, ArtifactRule.folder_trimmed]
    rfl
  rw [Router.build, routes]
  rfl

namespace Site

def trimmed (site : Site) : Site := { site with registry := site.registry.trimmed }

theorem selection_trimmed (site : Site) : site.trimmed.selection = site.selection.trimmed := rfl

theorem home_trimmed (site : Site) : site.trimmed.home = site.home := by
  rw [home, selection_trimmed, Selection.page_trimmed]
  rfl

theorem sample_trimmed (site : Site) (id : String) : site.trimmed.sample id = site.sample id := by
  rw [sample, selection_trimmed, Selection.select_trimmed, sample]
  cases site.selection.select id with
  | error error =>
      dsimp only [Except.map]
      rw [Selection.page_trimmed]
  | ok moved =>
      dsimp only [Except.map]
      rw [Selection.page_trimmed]

theorem view_trimmed (site : Site) (id : String) : site.trimmed.view id = site.view id := by
  rw [view, selection_trimmed, Selection.select_trimmed, view]
  cases site.selection.select id with
  | error error => rfl
  | ok moved =>
      dsimp only [Except.map]
      rw [Selection.view_trimmed]

theorem artifact_trimmed (site : Site) (tree : FileTree) (name : String) :
    site.trimmed.artifact tree name = site.artifact tree name := by
  have file : site.trimmed.artifactFile name = site.artifactFile name := by
    rw [artifactFile, trimmed, Registry.trimmed, ArtifactRule.folder_trimmed]
    rfl
  rw [artifact, file]
  rfl

theorem answer_trimmed (site : Site) (tree : FileTree) (endpoint : Endpoint) (raw : String) :
    site.trimmed.answer tree endpoint raw = site.answer tree endpoint raw := by
  cases endpoint with
  | health => rfl
  | summaries => rfl
  | home => exact site.home_trimmed
  | sample => rw [answer, answer, funext site.sample_trimmed]
  | view => rw [answer, answer, funext site.view_trimmed]
  | artifact => rw [answer, answer, funext (site.artifact_trimmed tree)]

theorem respond_trimmed (site : Site) (router : Router) (tree : FileTree) (request : Request) :
    site.trimmed.respond router tree request = site.respond router tree request := by
  unfold respond
  cases request.path?.bind router.dispatch? with
  | none => rfl
  | some target => simp only [answer_trimmed]

end Site

end Server

namespace Export

theorem place_samples_trimmed (output : String) (selection : Selection) (entries : List SampleEntry) :
    placeSamples output selection.trimmed entries = placeSamples output selection entries := by
  induction entries generalizing selection with
  | nil => rfl
  | cons entry rest ih =>
      rw [placeSamples, placeSamples, Selection.select_trimmed]
      cases selection.select entry.id.text with
      | error error => rfl
      | ok moved =>
          dsimp only [Except.map]
          rw [Selection.page_trimmed]
          dsimp only
          rw [ih]

theorem run_trimmed (registry : Registry) (deployment : Deployment) (source output : String) :
    run registry.trimmed deployment source output = run registry deployment source output := by
  have start : Selection.start registry.trimmed deployment = (Selection.start registry deployment).trimmed := rfl
  rw [run, start, Selection.page_trimmed]
  dsimp only
  rw [place_samples_trimmed]
  rfl

end Export

/-- Everything that can be seen of a registry: names and pages, the check of its directory, the answers of its server
and what its exports report and leave behind. -/
structure Behaviour where
  artifactPath : SampleEntry → String
  downloadLabel : SampleEntry → String
  check : Except Failure Unit
  answers : Deployment → List Selection.Step → List Selection.Answer
  page : Deployment → List Selection.Step → Option String → String
  serve : Deployment → String → FileTree → Server.Request → Except Server.Router.Fault Server.Response
  publish : Deployment → String → String → FileTree → Except Failure Export.Report × FileTree

namespace Registry

def behaviour (registry : Registry) : Behaviour where
  artifactPath := registry.artifactPath
  downloadLabel := registry.downloadLabel
  check := Server.ensureFolderFree registry
  answers deployment steps := ((Selection.start registry deployment).run steps).map Prod.fst
  page deployment steps notice := (((Selection.start registry deployment).after steps).page notice).1.render
  serve deployment publicDirectory tree request :=
    (Server.Router.build registry deployment).map fun router =>
      (⟨registry, deployment, publicDirectory⟩ : Server.Site).respond router tree request
  publish deployment publicDirectory outputDirectory tree :=
    (Export.run registry deployment publicDirectory outputDirectory).run tree

theorem behaviour_trimmed (registry : Registry) : registry.trimmed.behaviour = registry.behaviour := by
  have start : ∀ deployment,
      Selection.start registry.trimmed deployment = (Selection.start registry deployment).trimmed := fun _ => rfl
  have paths : registry.trimmed.artifactPath = registry.artifactPath :=
    funext fun entry => registry.rule.relative_path_trimmed entry.id
  have labels : registry.trimmed.downloadLabel = registry.downloadLabel :=
    funext fun entry => registry.rule.file_name_trimmed entry.id
  have served : ∀ deployment publicDirectory router tree request,
      (⟨registry.trimmed, deployment, publicDirectory⟩ : Server.Site).respond router tree request =
        (⟨registry, deployment, publicDirectory⟩ : Server.Site).respond router tree request :=
    fun deployment publicDirectory => Server.Site.respond_trimmed ⟨registry, deployment, publicDirectory⟩
  simp only [behaviour, start, paths, labels, served, Server.ensure_folder_free_trimmed, Server.Router.build_trimmed,
    Selection.run_trimmed, Selection.after_trimmed, Selection.page_trimmed, Export.run_trimmed, List.map_map]
  rfl

section Padded

variable {entries : List SampleEntry} {rule padded : ArtifactRule} (folders : rule.folder = padded.folder)
  (extensions : rule.extension = padded.extension)

include folders extensions

theorem fault_padded : rule.fault? = none ↔ padded.fault? = none := by
  rw [ArtifactRule.fault_none_iff, ArtifactRule.fault_none_iff, ArtifactRule.folderSegments, ArtifactRule.folderSegments,
    folders, extensions]

theorem built_padded :
    (∃ registry, ofEntries entries rule = .ok registry) ↔ ∃ registry, ofEntries entries padded = .ok registry := by
  rw [built_iff, built_iff, fault_padded folders extensions]

theorem trimmed_padded {registry other : Registry} (built : ofEntries entries rule = .ok registry)
    (rebuilt : ofEntries entries padded = .ok other) : registry.trimmed = other.trimmed := by
  obtain ⟨_, index, _, indexed, rfl⟩ := of_entries_cases built
  obtain ⟨_, again, _, reindexed, rfl⟩ := of_entries_cases rebuilt
  have indices : index = again := Except.ok.inj (indexed.symm.trans reindexed)
  have rules : rule.trimmed = padded.trimmed := by
    rw [ArtifactRule.trimmed, ArtifactRule.trimmed, folders, extensions]
  simp only [trimmed, indices, rules]

end Padded

theorem padding_unseen (entries : List SampleEntry) (directory extension : String) (front back : Nat) :
    let rule : ArtifactRule := ⟨directory, extension⟩
    let padded : ArtifactRule := ⟨Text.slashes front ++ directory ++ Text.slashes back, extension⟩
    (rule.fault? = none ↔ padded.fault? = none) ∧
    ((∃ registry, ofEntries entries rule = .ok registry) ↔ ∃ registry, ofEntries entries padded = .ok registry) ∧
    ∀ registry other, ofEntries entries rule = .ok registry → ofEntries entries padded = .ok other →
      registry.behaviour = other.behaviour := by
  intro rule padded
  have folders : rule.folder = padded.folder := (Text.trim_slashes_padded front back directory).symm
  have extensions : rule.extension = padded.extension := rfl
  refine ⟨fault_padded folders extensions, built_padded folders extensions, ?_⟩
  intro registry other built rebuilt
  rw [← behaviour_trimmed registry, trimmed_padded folders extensions built rebuilt, behaviour_trimmed other]

/-- A directory that would replace the public directory if a join took it as it is written. -/
theorem padding_unseen_absolute : ∃ registry other,
    ofEntries Catalog.builtinSamples ⟨"ir/v1", "ll"⟩ = .ok registry ∧
    ofEntries Catalog.builtinSamples ⟨"//ir/v1/", "ll"⟩ = .ok other ∧
    registry.rule ≠ other.rule ∧ registry.behaviour = other.behaviour := by
  obtain ⟨registry, built⟩ :=
    of_entries_ok Catalog.builtinSamples ⟨"ir/v1", "ll"⟩ (by decide) (by decide) (by decide)
  obtain ⟨_, accepted, unseen⟩ := padding_unseen Catalog.builtinSamples "ir/v1" "ll" 2 1
  obtain ⟨other, rebuilt⟩ := accepted.mp ⟨registry, built⟩
  refine ⟨registry, other, built, rebuilt, ?_, unseen registry other built rebuilt⟩
  rw [(of_entries_rule built).2.1, (of_entries_rule rebuilt).2.1]
  decide

end Registry

end Showcase
