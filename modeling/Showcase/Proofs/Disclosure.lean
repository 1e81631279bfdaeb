import Showcase.Proofs.Inspect
import Showcase.Proofs.Links
/-!
What the server can show of a file tree. Every answer is settled by the files right below the artifact directory, and
only the download of one of them depends on the tree at all.
-/
set_option autoImplicit false

namespace Showcase.Server

open FileTree
open FileTree.Path (join)

structure PlainName (name : String) : Prop where
  nonempty : name ≠ ""
  visible : name.toList.head? ≠ some '.'
  slashless : '/' ∉ name.toList
  backslashless : '\\' ∉ name.toList
  dotless : ¬ ['.', '.'] <:+: name.toList

theorem plain_name_iff (name : String) : Site.isFileName name = true ↔ PlainName name := by
  rw [Site.is_file_name_iff]
  constructor
  · rintro ⟨nonempty, visible, slashless, backslashless, dotless⟩
    exact ⟨nonempty, visible, slashless, backslashless, dotless⟩
  · intro plain
    exact ⟨plain.nonempty, plain.visible, plain.slashless, plain.backslashless, plain.dotless⟩

theorem plain_name_proper (name : String) (plain : PlainName name) : isName name = true := by
  have visible := plain.visible
  refine (is_name_iff name).mpr ⟨plain.nonempty, ?_, ?_, plain.slashless⟩
  · rintro rfl
    exact visible (by decide)
  · rintro rfl
    exact visible (by decide)

/-- Two trees that nobody can tell apart by reading the files of the artifact directory. -/
def SameArtifacts (site : Site) (a b : FileTree) : Prop :=
  ∀ name, PlainName name → a.read (join (join site.publicDirectory site.registry.rule.folder) name) =
    b.read (join (join site.publicDirectory site.registry.rule.folder) name)

theorem artifact_same (site : Site) (a b : FileTree) (same : SameArtifacts site a b) (name : String) :
    site.artifact a name = site.artifact b name := by
  cases plain : Site.isFileName name with
  | false => simp [Site.artifact, plain]
  | true => simp [Site.artifact, Site.artifactFile, plain, same name ((plain_name_iff name).mp plain)]

theorem answer_same (site : Site) (a b : FileTree) (same : SameArtifacts site a b) (endpoint : Endpoint) (raw : String) :
    site.answer a endpoint raw = site.answer b endpoint raw := by
  cases endpoint with
  | artifact =>
      have every : site.artifact a = site.artifact b := funext (artifact_same site a b same)
      rw [Site.answer, Site.answer, every]
  | _ => rfl

theorem answer_blind (site : Site) (a b : FileTree) (endpoint : Endpoint) (raw : String)
    (other : endpoint ≠ .artifact) : site.answer a endpoint raw = site.answer b endpoint raw := by
  cases endpoint with
  | artifact => exact absurd rfl other
  | _ => rfl

theorem respond_congr (site : Site) (router : Router) (a b : FileTree) (request : Request)
    (same : ∀ endpoint raw, request.path?.bind router.dispatch? = some (endpoint, raw) →
      site.answer a endpoint raw = site.answer b endpoint raw) :
    site.respond router a request = site.respond router b request := by
  unfold Site.respond
  cases dispatched : request.path?.bind router.dispatch? with
  | none => rfl
  | some target =>
      obtain ⟨endpoint, raw⟩ := target
      dsimp only
      rw [same endpoint raw dispatched]

theorem attachment_ok (name : String) (content : Bytes) (answered : (Site.attachment name content).status = 200) :
    (Site.attachment name content).body = content := by
  unfold Site.attachment at answered ⊢
  split at answered
  · rename_i printable
    rw [if_pos printable]
  · cases answered

theorem artifact_ok (site : Site) (tree : FileTree) (raw : String)
    (answered : (site.answer tree .artifact raw).status = 200) :
    ∃ name content, Text.Percent.decode? raw = some name ∧ PlainName name ∧
      tree.read (site.artifactFile name) = .ok content ∧ (site.answer tree .artifact raw).body = content := by
  rw [Site.answer, Site.withSegment] at answered ⊢
  cases decoded : Text.Percent.decode? raw with
  | none =>
      rw [decoded] at answered
      cases answered
  | some name =>
      rw [decoded] at answered
      dsimp only at answered ⊢
      cases plain : Site.isFileName name with
      | false =>
          simp only [Site.artifact, plain] at answered
          cases answered
      | true =>
          have served : site.artifact tree name = Site.download name (tree.read (site.artifactFile name)) := by
            simp [Site.artifact, plain]
          rw [served] at answered ⊢
          cases content : tree.read (site.artifactFile name) with
          | error fault =>
              rw [content, Site.download_error] at answered
              split at answered <;> cases answered
          | ok bytes =>
              rw [content] at answered
              exact ⟨name, bytes, rfl, (plain_name_iff name).mp plain, content, attachment_ok name bytes answered⟩

section Built

variable {entries : List SampleEntry} {rule : ArtifactRule} {registry : Registry}

theorem folder_names (faultless : registry.rule.fault? = none) :
    ∃ names : List Name, names.map (fun name => name.text.toList) = registry.rule.folderSegments ∧
      (Route.ofText registry.rule.folder).steps = names.map Step.name := by
  have proper : ∀ segment ∈ registry.rule.folderSegments, isName (String.ofList segment) = true := by
    intro segment member
    have valid := (ArtifactRule.faultless_parts faultless).1 segment member
    simp only [ArtifactRule.isSegment, Bool.and_eq_true, bne_iff_ne] at valid
    obtain ⟨⟨⟨nonempty, dot⟩, dots⟩, characters⟩ := valid
    have other : ∀ text : String, segment ≠ text.toList → String.ofList segment ≠ text :=
      fun text different same => different (by rw [← same, String.toList_ofList])
    refine (is_name_iff _).mpr ⟨other "" nonempty, other "." dot, other ".." dots, ?_⟩
    rw [String.toList_ofList]
    intro slash
    have outside := List.all_eq_true.mp characters '/' slash
    revert outside
    decide
  obtain ⟨names, texts, steps⟩ := Step.of_names registry.rule.folderSegments proper
  refine ⟨names, texts, ?_⟩
  rw [← steps, ArtifactRule.folderSegments]
  split
  · rename_i empty
    rw [String.isEmpty_iff.mp empty]
    decide
  · simp only [Route.ofText]

/-- The path of a download goes down from the public directory and never up. -/
theorem artifact_steps (faultless : registry.rule.fault? = none) (publicDirectory name : String)
    (plain : PlainName name) :
    let route := Route.ofText (join (join publicDirectory registry.rule.folder) name)
    route.absolute = (Route.ofText publicDirectory).absolute ∧
      ∃ names : List Name,
        names.map (fun name => name.text.toList) = registry.rule.folderSegments ++ [name.toList] ∧
        route.steps = (Route.ofText publicDirectory).steps ++ names.map Step.name := by
  have folderPlain := registry.rule.folder_head
  let last : Name := ⟨name, plain_name_proper name plain⟩
  have lastSteps : (Route.ofText name).steps = [.name last] := Route.steps_name last
  obtain ⟨names, texts, steps⟩ := folder_names faultless
  refine ⟨?_, names ++ [last], ?_, ?_⟩
  · rw [Route.absolute_join _ name last.plain, Route.absolute_join _ _ folderPlain]
  · rw [List.map_append, texts]
    rfl
  · rw [Route.steps_join _ name last.plain, Route.steps_join _ _ folderPlain, steps, lastSteps,
      List.map_append, List.append_assoc]
    rfl

theorem only_artifacts_disclosed (site : Site) (router : Router)
    (built : Registry.ofEntries entries rule = .ok site.registry)
    (made : Router.build site.registry site.deployment = .ok router) (request : Request) :
    let file := fun name => join (join site.publicDirectory site.registry.rule.folder) name
    (∀ a b, SameArtifacts site a b → site.respond router a request = site.respond router b request) ∧
    ((∀ raw, request.path?.bind router.dispatch? ≠ some (.artifact, raw)) →
      ∀ a b, site.respond router a request = site.respond router b request) ∧
    (∀ tree path raw, request.method = "GET" → request.path? = some path →
      router.dispatch? path = some (.artifact, raw) → (site.respond router tree request).status = 200 →
      path = site.deployment.basePath ++ site.registry.rule.folderHead ++ raw ∧ '/' ∉ raw.toList ∧
      ∃ name content, Text.Percent.decode? raw = some name ∧ PlainName name ∧
        tree.read (file name) = .ok content ∧ (site.respond router tree request).body = content) ∧
    ∀ name, PlainName name →
      (Route.ofText (file name)).absolute = (Route.ofText site.publicDirectory).absolute ∧
      ∃ names : List Name,
        names.map (fun name => name.text.toList) = site.registry.rule.folderSegments ++ [name.toList] ∧
        (Route.ofText (file name)).steps =
          (Route.ofText site.publicDirectory).steps ++ names.map Step.name := by
  have faultless := (Registry.of_entries_rule built).2.2
  refine ⟨?_, ?_, ?_, artifact_steps faultless site.publicDirectory⟩
  · intro a b same
    exact respond_congr site router a b request (fun endpoint raw _ => answer_same site a b same endpoint raw)
  · intro elsewhere a b
    refine respond_congr site router a b request (fun endpoint raw dispatched => answer_blind site a b endpoint raw ?_)
    rintro rfl
    exact elsewhere raw dispatched
  · intro tree path raw reading asked dispatched answered
    have response : site.respond router tree request = site.answer tree .artifact raw := by
      rw [Site.respond, asked, Option.bind_some, dispatched]
      exact if_pos reading
    rw [response] at answered ⊢
    rw [Router.built_routes _ _ router made] at dispatched
    cases Router.dispatch_reaches _ _ path .artifact raw dispatched with
    | artifact _ plain _ _ => exact ⟨rfl, plain, artifact_ok site tree raw answered⟩

end Built

def shelfNames : List Name := [⟨"public", by decide⟩, ⟨"artifacts", by decide⟩, ⟨"test1.ll", by decide⟩]

def shelf : FileTree :=
  { (emptyAt shelfNames.reverse.tail).put shelfNames.reverse (.file { content := [104, 105] }) with current := [] }

theorem shelf_read : shelf.read "public/artifacts/test1.ll" = .ok [104, 105] :=
  open_read shelf _ { content := [104, 105] } ((open_ok_iff shelf _ _).mpr ⟨_, inspect_names shelf _ shelfNames _
    (by decide) (by decide) (by decide) (by decide) (fun _ same => by cases same) (by decide)⟩)

section Escaped

variable (registry : Registry) (ruled : registry.rule = {})

include ruled

theorem escaped_dispatched : (Router.routes registry Deployment.root).dispatch? "/artifacts/test%31.ll" =
    some (.artifact, "test%31.ll") := by
  have accepted : Deployment.ofBasePath "/" = .ok Deployment.root := by decide
  rw [Router.dispatch_iff accepted (by decide) registry (default_folder_free registry ruled)]
  have reaches := @Reaches.artifact registry Deployment.root "test%31.ll" (by decide) (by decide)
  rw [ruled] at reaches
  exact reaches (by decide)

theorem escaped_file :
    (⟨registry, Deployment.root, "public"⟩ : Site).artifactFile "test1.ll" = "public/artifacts/test1.ll" := by
  rw [Site.artifactFile, ruled]
  exact show join (join "public" ({} : ArtifactRule).folder) "test1.ll" = "public/artifacts/test1.ll" by decide

theorem escaped_answered :
    (⟨registry, Deployment.root, "public"⟩ : Site).respond (Router.routes registry Deployment.root) shelf
      { uri := "/artifacts/test%31.ll" } = Site.attachment "test1.ll" [104, 105] := by
  have asked : ({ uri := "/artifacts/test%31.ll" } : Request).path? = some "/artifacts/test%31.ll" := by decide
  have decoded : Text.Percent.decode? "test%31.ll" = some "test1.ll" := by decide
  have named : Site.isFileName "test1.ll" = true := by decide
  have dispatched := escaped_dispatched registry ruled
  rw [(gets_dispatched _ _ shelf _ .artifact _ asked dispatched).answered _ rfl asked, Site.answer, Site.withSegment,
    decoded]
  dsimp only
  rw [Site.artifact, named, escaped_file registry ruled, shelf_read]
  rfl

end Escaped

theorem only_artifacts_disclosed_escaped : ∃ registry router,
    Registry.ofEntries Catalog.builtinSamples {} = .ok registry ∧
    Router.build registry Deployment.root = .ok router ∧
    let respond := (⟨registry, Deployment.root, "public"⟩ : Site).respond router
    (respond shelf { uri := "/artifacts/test%31.ll" }).status = 200 ∧
    (respond shelf { uri := "/artifacts/test%31.ll" }).body = [104, 105] ∧
    ∀ tree, SameArtifacts ⟨registry, Deployment.root, "public"⟩ shelf tree →
      respond shelf { uri := "/artifacts/test%31.ll" } = respond tree { uri := "/artifacts/test%31.ll" } := by
  obtain ⟨registry, built⟩ := Registry.builtin_ok
  obtain ⟨_, ruled, _⟩ := Registry.of_entries_rule built
  have accepted : Deployment.ofBasePath "/" = .ok Deployment.root := by decide
  have made := Router.build_ok accepted (by decide) (by decide) registry (default_folder_free registry ruled)
  obtain ⟨same, _, whole, _⟩ := only_artifacts_disclosed ⟨registry, Deployment.root, "public"⟩ _ built made
    { uri := "/artifacts/test%31.ll" }
  have asked : ({ uri := "/artifacts/test%31.ll" } : Request).path? = some "/artifacts/test%31.ll" := by decide
  have decoded : Text.Percent.decode? "test%31.ll" = some "test1.ll" := by decide
  have status : (Site.attachment "test1.ll" [104, 105]).status = 200 := by decide
  rw [← escaped_answered registry ruled] at status
  obtain ⟨_, _, name, content, unescaped, _, read, body⟩ :=
    whole shelf _ _ rfl asked (escaped_dispatched registry ruled) status
  refine ⟨registry, _, built, made, status, ?_, fun tree agrees => same shelf tree agrees⟩
  rw [decoded] at unescaped
  cases unescaped
  have held : shelf.read ((⟨registry, Deployment.root, "public"⟩ : Site).artifactFile "test1.ll") = .ok content := read
  rw [escaped_file registry ruled, shelf_read] at held
  cases held
  exact body

end Showcase.Server
