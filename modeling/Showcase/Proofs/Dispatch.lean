import Showcase.Proofs.Surfaces

set_option autoImplicit false

namespace Showcase.Server

/-- The paths of an endpoint, with the segment that the endpoint gets. A segment never has a slash in it. -/
def Takes (registry : Registry) (deployment : Deployment) (path : String) : Endpoint → String → Prop
  | .health, segment => segment = "" ∧ path = "/healthz"
  | .home, segment =>
      segment = "" ∧
        (path = deployment.basePath ∨ deployment.basePath ≠ "/" ∧ deployment.basePath = path ++ "/")
  | .sample, segment =>
      segment ≠ "" ∧ '/' ∉ segment.toList ∧
        (path = deployment.basePath ++ "samples/" ++ segment ∨
          path = deployment.basePath ++ "samples/" ++ segment ++ "/") ∨
      segment = "" ∧ path = deployment.basePath ++ "samples//"
  | .summaries, segment => segment = "" ∧ path = deployment.basePath ++ "api/samples"
  | .view, segment =>
      segment ≠ "" ∧ '/' ∉ segment.toList ∧ path = deployment.basePath ++ "api/samples/" ++ segment
  | .artifact, segment =>
      segment ≠ "" ∧ '/' ∉ segment.toList ∧ path ≠ "/healthz" ∧
        (registry.rule.folder = "" ∧ path = deployment.basePath ++ segment ∨
          registry.rule.folder ≠ "" ∧ path = deployment.basePath ++ registry.rule.folder ++ "/" ++ segment)

section Paths

variable {basePath : String} {deployment : Deployment}

theorem bare_iff (accepted : Deployment.ofBasePath basePath = .ok deployment) (path : String) :
    deployment.basePath = path ++ "/" ↔ path = Text.trimTrailingSlashes deployment.basePath := by
  have slash := Deployment.base_path_slash accepted
  constructor
  · intro same
    have texts := congrArg String.toList (same.symm.trans slash)
    simp only [String.toList_append, List.append_cancel_right_eq] at texts
    exact String.toList_inj.mp texts
  · intro same
    rw [same]
    exact slash

theorem is_root_false_iff (deployment : Deployment) : deployment.isRoot = false ↔ deployment.basePath ≠ "/" := by
  rw [Deployment.isRoot, beq_eq_false_iff_ne]
  rfl

theorem artifact_path_iff (registry : Registry) (deployment : Deployment) (path segment : String) :
    (registry.rule.folder = "" ∧ path = deployment.basePath ++ segment ∨
      registry.rule.folder ≠ "" ∧ path = deployment.basePath ++ registry.rule.folder ++ "/" ++ segment) ↔
      path = deployment.basePath ++ registry.rule.folderHead ++ segment := by
  unfold ArtifactRule.folderHead
  by_cases empty : registry.rule.folder = ""
  · simp [empty]
  · simp [empty, String.append_assoc]

theorem takes_reaches (accepted : Deployment.ofBasePath basePath = .ok deployment) (registry : Registry) (path : String)
    (endpoint : Endpoint) (segment : String) (takes : Takes registry deployment path endpoint segment) :
    Reaches registry deployment path endpoint segment := by
  cases endpoint with
  | health =>
      obtain ⟨rfl, rfl⟩ := takes
      exact .health
  | home =>
      obtain ⟨rfl, rfl | ⟨inner, bare⟩⟩ := takes
      · exact .home
      · rw [(bare_iff accepted path).mp bare]
        exact .bare ((is_root_false_iff deployment).mpr inner)
  | sample =>
      obtain ⟨present, plain, rfl | rfl⟩ | ⟨rfl, rfl⟩ := takes
      · exact .sample segment plain present
      · exact .sampleSlash segment plain
      · have doubled : deployment.basePath ++ "samples//" = deployment.basePath ++ "samples/" ++ "" ++ "/" := by
          rw [String.append_empty, String.append_assoc]
          rfl
        rw [doubled]
        exact .sampleSlash "" (by simp)
  | summaries =>
      obtain ⟨rfl, rfl⟩ := takes
      exact .summaries
  | view =>
      obtain ⟨present, plain, rfl⟩ := takes
      exact .view segment plain present
  | artifact =>
      obtain ⟨present, plain, elsewhere, written⟩ := takes
      obtain rfl := (artifact_path_iff registry deployment path segment).mp written
      exact .artifact segment plain present elsewhere

theorem reaches_takes (accepted : Deployment.ofBasePath basePath = .ok deployment) (registry : Registry) (path : String)
    (endpoint : Endpoint) (segment : String) (reaches : Reaches registry deployment path endpoint segment) :
    Takes registry deployment path endpoint segment := by
  cases reaches with
  | health => exact ⟨rfl, rfl⟩
  | home => exact ⟨rfl, .inl rfl⟩
  | bare inner => exact ⟨rfl, .inr ⟨(is_root_false_iff deployment).mp inner, (bare_iff accepted _).mpr rfl⟩⟩
  | sample _ plain present => exact .inl ⟨present, plain, .inl rfl⟩
  | sampleSlash _ plain =>
      by_cases empty : segment = ""
      · right
        refine ⟨empty, ?_⟩
        rw [empty, String.append_empty, String.append_assoc]
        rfl
      · exact .inl ⟨empty, plain, .inr rfl⟩
  | summaries => exact ⟨rfl, rfl⟩
  | view _ plain present => exact ⟨present, plain, rfl⟩
  | artifact _ plain present elsewhere =>
      exact ⟨present, plain, elsewhere, (artifact_path_iff registry deployment _ segment).mpr rfl⟩

theorem respond_missing (site : Site) (router : Router) (tree : FileTree) (request : Request) (path : String)
    (asks : Asks request path) (missing : router.dispatch? path = none) :
    site.respond router tree request = .notFound := by
  rw [Site.respond, asks.asked, Option.bind_some, missing]

theorem dispatch_exact (accepted : Deployment.ofBasePath basePath = .ok deployment)
    (rooted : deployment.basePath.toList.head? = some '/') (notHealth : deployment.basePath ≠ "/healthz/")
    (registry : Registry) (free : ensureFolderFree registry = .ok ()) (publicDirectory : String) (tree : FileTree) :
    ∃ router, Router.build registry deployment = .ok router ∧
      (∀ path endpoint segment,
        router.dispatch? path = some (endpoint, segment) ↔ Takes registry deployment path endpoint segment) ∧
      (∀ path endpoint segment other piece, Takes registry deployment path endpoint segment →
        Takes registry deployment path other piece → endpoint = other ∧ segment = piece) ∧
      ∀ request path, Asks request path →
        let response := (⟨registry, deployment, publicDirectory⟩ : Site).respond router tree request
        (∀ endpoint segment, Takes registry deployment path endpoint segment →
          response = (⟨registry, deployment, publicDirectory⟩ : Site).answer tree endpoint segment) ∧
        ((∀ endpoint segment, ¬ Takes registry deployment path endpoint segment) → response.status = 404) := by
  have exact_paths : ∀ path endpoint segment,
      (Router.routes registry deployment).dispatch? path = some (endpoint, segment) ↔
        Takes registry deployment path endpoint segment := by
    intro path endpoint segment
    rw [Router.dispatch_iff accepted notHealth registry free]
    exact ⟨reaches_takes accepted registry path endpoint segment, takes_reaches accepted registry path endpoint segment⟩
  refine ⟨_, Router.build_ok accepted rooted notHealth registry free, exact_paths, ?_, ?_⟩
  · intro path endpoint segment other piece left right
    have same := ((exact_paths path endpoint segment).mpr left).symm.trans ((exact_paths path other piece).mpr right)
    exact Prod.mk.inj (Option.some.inj same)
  · intro request path asks
    refine ⟨?_, ?_⟩
    · intro endpoint segment takes
      exact respond_dispatched _ _ tree request path endpoint segment asks
        ((exact_paths path endpoint segment).mpr takes)
    · intro nowhere
      have missing : (Router.routes registry deployment).dispatch? path = none := by
        cases found : (Router.routes registry deployment).dispatch? path with
        | none => rfl
        | some target => exact absurd ((exact_paths path target.1 target.2).mp found) (nowhere target.1 target.2)
      rw [respond_missing _ _ tree request path asks missing]
      rfl

end Paths

theorem dispatch_exact_flat : ∃ registry router,
    Registry.ofEntries Catalog.builtinSamples ⟨"//", "ll"⟩ = .ok registry ∧ ensureFolderFree registry = .ok () ∧
    Deployment.ofBasePath "" = .ok ⟨"/"⟩ ∧ Router.build registry ⟨"/"⟩ = .ok router ∧
    router.dispatch? "/" = some (.home, "") ∧ router.dispatch? "/healthz" = some (.health, "") ∧
    router.dispatch? "/samples" = some (.artifact, "samples") ∧
    router.dispatch? "/samples/api" = some (.sample, "api") ∧ router.dispatch? "/samples//" = some (.sample, "") ∧
    router.dispatch? "/api/samples/%20" = some (.view, "%20") ∧
    (⟨registry, ⟨"/"⟩, "public"⟩ : Site).respond router FileTree.empty { uri := "/healthz?now" } =
      .plain 200 "ok" := by
  obtain ⟨registry, built⟩ :=
    Registry.of_entries_ok Catalog.builtinSamples ⟨"//", "ll"⟩ (by decide) (by decide) (by decide)
  obtain ⟨_, ruled, _⟩ := Registry.of_entries_rule built
  have free : ensureFolderFree registry = .ok () := by
    rw [ensureFolderFree, ruled]
    decide
  have accepted : Deployment.ofBasePath "" = .ok ⟨"/"⟩ := by decide
  have flat : registry.rule.folder = "" := by
    rw [ruled]
    decide
  obtain ⟨router, made, taken, _, served⟩ :=
    dispatch_exact accepted rfl (by decide) registry free "public" FileTree.empty
  refine ⟨registry, router, built, free, accepted, made, ?_, ?_, ?_, ?_, ?_, ?_, ?_⟩
  · exact (taken _ _ _).mpr ⟨rfl, .inl rfl⟩
  · exact (taken _ _ _).mpr ⟨rfl, rfl⟩
  · exact (taken _ _ _).mpr ⟨by decide, by decide, by decide, .inl ⟨flat, rfl⟩⟩
  · exact (taken _ _ _).mpr (.inl ⟨by decide, by decide, .inl rfl⟩)
  · exact (taken _ _ _).mpr (.inr ⟨rfl, rfl⟩)
  · exact (taken _ _ _).mpr ⟨by decide, by decide, rfl⟩
  · exact (served _ "/healthz" ⟨rfl, by decide⟩).1 .health "" ⟨rfl, rfl⟩

end Showcase.Server
