import Mathlib.Data.List.Infix
import Showcase.Proofs.Artifact
import Showcase.Proofs.Deployment
import Showcase.Server.Router

set_option autoImplicit false

namespace Showcase.Server

namespace Pattern

theorem cut_at_slash (segment tail : List Char) (plain : '/' ∉ segment) (opens : ∀ c, tail.head? = some c → c = '/') :
    (segment ++ tail).takeWhile (fun c => !Text.isSlash c) = segment ∧
      (segment ++ tail).dropWhile (fun c => !Text.isSlash c) = tail :=
  Text.cut_where Text.isSlash segment tail (Text.slashless segment plain)
    fun c first => (Text.is_slash_iff c).mpr (opens c first)

theorem capture_param_iff (head name tail path segment : String) (opens : ∀ c, tail.toList.head? = some c → c = '/') :
    (param head name tail).capture? path = some segment ↔
      path = head ++ segment ++ tail ∧ '/' ∉ segment.toList ∧ segment ++ tail ≠ "" := by
  constructor
  · intro captured
    unfold capture? at captured
    dsimp only at captured
    split at captured
    · cases captured
    · cases captured
    · rename_i rest nonempty cut
      rw [List.isPrefixOf?_eq_some_iff_append_eq] at cut
      split at captured
      · rename_i ending
        have same := Option.some.inj captured
        subst same
        have whole : rest = rest.takeWhile (fun c => !Text.isSlash c) ++ tail.toList := by
          rw [← ending, List.takeWhile_append_dropWhile]
        refine ⟨?_, ?_, ?_⟩
        · rw [← String.toList_inj, ← cut]
          simpa using whole
        · intro member
          rw [String.toList_ofList] at member
          have inside := List.mem_takeWhile_imp member
          simp [Text.isSlash] at inside
        · intro empty
          rw [← String.toList_inj, String.toList_append, String.toList_ofList, ← whole] at empty
          exact nonempty (by simpa using empty)
      · cases captured
  · rintro ⟨rfl, plain, present⟩
    obtain ⟨taken, dropped⟩ := cut_at_slash segment.toList tail.toList plain opens
    have prefixed : head.toList.isPrefixOf? (head ++ segment ++ tail).toList = some (segment.toList ++ tail.toList) := by
      simp
    unfold capture?
    dsimp only
    rw [prefixed]
    cases rest : segment.toList ++ tail.toList with
    | nil => exact absurd (String.toList_inj.mp (by simpa using rest)) present
    | cons c others =>
        dsimp only
        rw [← rest, taken, dropped, if_pos rfl, String.ofList_toList]

theorem capture_exact_iff (text path segment : String) :
    (exact text).capture? path = some segment ↔ path = text ∧ segment = "" := by
  unfold capture?
  dsimp only
  split
  · rename_i same
    simp [same, eq_comm]
  · rename_i different
    simp [Ne.symm different]

end Pattern

section Below

variable {samples api : List Char} {folder : List (List Char)}

inductive Below (samples api : List Char) (folder : List (List Char)) :
    List (List Char) → Endpoint → List Char → Prop where
  | home : Below samples api folder [[]] .home []
  | sample (segment : List Char) (present : segment ≠ []) : Below samples api folder [samples, segment] .sample segment
  | sampleSlash (segment : List Char) : Below samples api folder [samples, segment, []] .sample segment
  | summaries : Below samples api folder [api, samples] .summaries []
  | view (segment : List Char) (present : segment ≠ []) : Below samples api folder [api, samples, segment] .view segment
  | artifact (segments : List (List Char)) (segment : List Char) (present : segment ≠ [])
      (inside : segments = folder ++ [segment]) : Below samples api folder segments .artifact segment

theorem below_artifact (segments : List (List Char)) (endpoint : Endpoint) (segment last : List Char)
    (free : folder.head? ≠ some samples ∧ folder.head? ≠ some api) (present : last ≠ [])
    (inside : segments = folder ++ [last]) (below : Below samples api folder segments endpoint segment) :
    endpoint = .artifact ∧ segment = last := by
  cases folder with
  | nil => cases below <;> simp_all
  | cons first others => cases below <;> simp_all

theorem below_unique (different : samples ≠ api) (free : folder.head? ≠ some samples ∧ folder.head? ≠ some api)
    (segments : List (List Char)) (a b : Endpoint) (s t : List Char) (left : Below samples api folder segments a s)
    (right : Below samples api folder segments b t) : a = b ∧ s = t := by
  cases left with
  | artifact _ _ present inside =>
      have same := below_artifact segments b t s free present inside right
      exact ⟨same.1.symm, same.2.symm⟩
  | home =>
      cases right with
      | artifact _ _ present inside => exact below_artifact _ _ _ t free present inside .home
      | home => exact ⟨rfl, rfl⟩
  | sample _ some =>
      cases right with
      | artifact _ _ present inside => exact below_artifact _ _ _ t free present inside (.sample s some)
      | sample => exact ⟨rfl, rfl⟩
      | summaries => exact absurd rfl different
  | sampleSlash =>
      cases right with
      | artifact _ _ present inside => exact below_artifact _ _ _ t free present inside (.sampleSlash s)
      | sampleSlash => exact ⟨rfl, rfl⟩
      | view => exact absurd rfl different
  | summaries =>
      cases right with
      | artifact _ _ present inside => exact below_artifact _ _ _ t free present inside .summaries
      | summaries => exact ⟨rfl, rfl⟩
      | sample => exact absurd rfl different
  | view _ some =>
      cases right with
      | artifact _ _ present inside => exact below_artifact _ _ _ t free present inside (.view s some)
      | view => exact ⟨rfl, rfl⟩
      | sampleSlash => exact absurd rfl different

end Below

abbrev BelowBase (registry : Registry) : List (List Char) → Endpoint → List Char → Prop :=
  Below "samples".toList "api".toList registry.rule.folderSegments

inductive Reaches (registry : Registry) (deployment : Deployment) : String → Endpoint → String → Prop where
  | health : Reaches registry deployment "/healthz" .health ""
  | home : Reaches registry deployment deployment.basePath .home ""
  | bare (inner : deployment.isRoot = false) :
      Reaches registry deployment (Text.trimTrailingSlashes deployment.basePath) .home ""
  | sample (segment : String) (plain : '/' ∉ segment.toList) (present : segment ≠ "") :
      Reaches registry deployment (deployment.basePath ++ "samples/" ++ segment) .sample segment
  | sampleSlash (segment : String) (plain : '/' ∉ segment.toList) :
      Reaches registry deployment (deployment.basePath ++ "samples/" ++ segment ++ "/") .sample segment
  | summaries : Reaches registry deployment (deployment.basePath ++ "api/samples") .summaries ""
  | view (segment : String) (plain : '/' ∉ segment.toList) (present : segment ≠ "") :
      Reaches registry deployment (deployment.basePath ++ "api/samples/" ++ segment) .view segment
  | artifact (segment : String) (plain : '/' ∉ segment.toList) (present : segment ≠ "")
      (elsewhere : deployment.basePath ++ registry.rule.folderHead ++ segment ≠ "/healthz") :
      Reaches registry deployment (deployment.basePath ++ registry.rule.folderHead ++ segment) .artifact segment

theorem segments_behind (word segment : String) (plain : '/' ∉ segment.toList) :
    Text.segments (word ++ "/" ++ segment).toList = Text.segments word.toList ++ [segment.toList] := by
  rw [String.toList_append, String.toList_append, List.append_assoc, show "/".toList = ['/'] by decide,
    List.singleton_append, Text.segments_slash, Text.segments_plain _ plain]

theorem folder_segments (rule : ArtifactRule) (segment : String) (plain : '/' ∉ segment.toList) :
    Text.segments (rule.folderHead ++ segment).toList = rule.folderSegments ++ [segment.toList] := by
  unfold ArtifactRule.folderHead ArtifactRule.folderSegments
  split
  · rw [String.empty_append, Text.segments_plain _ plain, List.nil_append]
  · exact segments_behind rule.folder segment plain

theorem default_folder_free (registry : Registry) (ruled : registry.rule = {}) : ensureFolderFree registry = .ok () := by
  rw [ensureFolderFree, ruled]
  decide

theorem folder_free (registry : Registry) (free : ensureFolderFree registry = .ok ()) :
    registry.rule.folderSegments.head? ≠ some "samples".toList ∧
      registry.rule.folderSegments.head? ≠ some "api".toList := by
  unfold ensureFolderFree at free
  dsimp only at free
  split at free
  · cases free
  · rename_i other
    unfold ArtifactRule.folderSegments
    split
    · simp
    · cases cut : Text.segments registry.rule.folder.toList with
      | nil => simp
      | cons first rest =>
          rw [cut, List.headD_cons] at other
          simp only [ownSegments, List.mem_cons, List.not_mem_nil, or_false, not_or] at other
          constructor
          · intro same
            exact other.1 (by rw [Option.some.inj same, String.ofList_toList])
          · intro same
            exact other.2 (by rw [Option.some.inj same, String.ofList_toList])

theorem reaches_below (registry : Registry) (deployment : Deployment) (path : String) (endpoint : Endpoint)
    (segment : String) (reaches : Reaches registry deployment path endpoint segment) :
    path = "/healthz" ∧ endpoint = .health ∧ segment = "" ∨
    path = Text.trimTrailingSlashes deployment.basePath ∧ endpoint = .home ∧ segment = "" ∨
    ∃ rest, path = deployment.basePath ++ rest ∧ (endpoint = .artifact → path ≠ "/healthz") ∧
      BelowBase registry (Text.segments rest.toList) endpoint segment.toList := by
  cases reaches with
  | health => exact .inl ⟨rfl, rfl, rfl⟩
  | bare => exact .inr (.inl ⟨rfl, rfl, rfl⟩)
  | home => exact .inr (.inr ⟨"", by simp, by simp, .home⟩)
  | sample _ plain present =>
      refine .inr (.inr ⟨"samples/" ++ segment, String.append_assoc, by simp, ?_⟩)
      rw [show "samples/" = "samples" ++ "/" by decide, segments_behind "samples" segment plain,
        show Text.segments "samples".toList = ["samples".toList] by decide]
      exact .sample segment.toList (fun empty => present (String.toList_eq_nil_iff.mp empty))
  | sampleSlash _ plain =>
      refine .inr (.inr ⟨"samples/" ++ segment ++ "/", by simp only [String.append_assoc], by simp, ?_⟩)
      have behind := segments_behind ("samples" ++ "/" ++ segment) "" (by simp)
      rw [String.append_empty, segments_behind "samples" segment plain,
        show Text.segments "samples".toList = ["samples".toList] by decide] at behind
      rw [show "samples/" = "samples" ++ "/" by decide, behind]
      exact .sampleSlash segment.toList
  | summaries =>
      refine .inr (.inr ⟨"api/samples", rfl, by simp, ?_⟩)
      rw [show Text.segments "api/samples".toList = ["api".toList, "samples".toList] by decide]
      exact .summaries
  | view _ plain present =>
      refine .inr (.inr ⟨"api/samples/" ++ segment, String.append_assoc, by simp, ?_⟩)
      rw [show "api/samples/" = "api/samples" ++ "/" by decide, segments_behind "api/samples" segment plain,
        show Text.segments "api/samples".toList = ["api".toList, "samples".toList] by decide]
      exact .view segment.toList (fun empty => present (String.toList_eq_nil_iff.mp empty))
  | artifact _ plain present elsewhere =>
      refine .inr (.inr ⟨registry.rule.folderHead ++ segment, String.append_assoc, fun _ => elsewhere, ?_⟩)
      exact .artifact _ _ (fun empty => present (String.toList_eq_nil_iff.mp empty)) (folder_segments _ _ plain)

section Accepted

variable {basePath : String} {deployment : Deployment}

theorem base_extends_bare (accepted : Deployment.ofBasePath basePath = .ok deployment) (rest : String) :
    Text.trimTrailingSlashes deployment.basePath ≠ deployment.basePath ++ rest := by
  intro same
  have bare := congrArg (fun text => text.toList.length) same
  have whole := congrArg (fun text => text.toList.length) (Deployment.base_path_slash accepted)
  simp only [String.toList_append, List.length_append] at bare whole
  have slash : "/".toList.length = 1 := by decide
  omega

theorem health_below_root (accepted : Deployment.ofBasePath basePath = .ok deployment) (rest : String)
    (same : "/healthz" = deployment.basePath ++ rest) : rest = "healthz" := by
  rw [Deployment.base_path_slash accepted] at same
  have texts := congrArg String.toList same
  rw [String.toList_append, String.toList_append, show "/healthz".toList = '/' :: "healthz".toList by decide,
    show "/".toList = ['/'] by decide, List.append_assoc, List.singleton_append] at texts
  cases stem : (Text.trimTrailingSlashes deployment.basePath).toList with
  | nil =>
      rw [stem] at texts
      exact String.toList_inj.mp (List.cons.inj texts).2.symm
  | cons c others =>
      rw [stem] at texts
      have outside : '/' ∉ "healthz".toList := by decide
      rw [(List.cons.inj texts).2] at outside
      exact absurd (List.mem_append_right _ List.mem_cons_self) outside

theorem reaches_unique (accepted : Deployment.ofBasePath basePath = .ok deployment)
    (notHealth : deployment.basePath ≠ "/healthz/") (registry : Registry) (free : ensureFolderFree registry = .ok ())
    (path : String) (a b : Endpoint) (s t : String) (left : Reaches registry deployment path a s)
    (right : Reaches registry deployment path b t) : a = b ∧ s = t := by
  have bareHealth : Text.trimTrailingSlashes deployment.basePath ≠ "/healthz" := by
    intro same
    apply notHealth
    rw [Deployment.base_path_slash accepted, same]
    rfl
  -- "/healthz" behind the root is no page and no interface, so only the artifact route could take it
  have healthBelow : ∀ (endpoint : Endpoint) (rest : String) (segment : List Char),
      "/healthz" = deployment.basePath ++ rest → (endpoint = .artifact → "/healthz" ≠ "/healthz") →
      ¬ BelowBase registry (Text.segments rest.toList) endpoint segment := by
    intro endpoint rest segment split elsewhere below
    rw [health_below_root accepted rest split] at below
    generalize cut : Text.segments "healthz".toList = parts at below
    have single : parts = ["healthz".toList] := cut.symm.trans (by decide)
    cases below with
    | artifact => exact elsewhere rfl rfl
    | home => exact absurd single (by decide)
    | sample => simp at single
    | sampleSlash => simp at single
    | summaries => simp at single
    | view => simp at single
  rcases reaches_below registry deployment path a s left with
    ⟨rfl, rfl, rfl⟩ | ⟨rfl, rfl, rfl⟩ | ⟨rest, split, elsewhere, below⟩
  · rcases reaches_below registry deployment _ b t right with
      ⟨_, rfl, rfl⟩ | ⟨same, _, _⟩ | ⟨rest, split, elsewhere, below⟩
    · exact ⟨rfl, rfl⟩
    · exact absurd same.symm bareHealth
    · exact absurd below (healthBelow b rest t.toList split elsewhere)
  · rcases reaches_below registry deployment _ b t right with ⟨same, _, _⟩ | ⟨_, rfl, rfl⟩ | ⟨rest, split, _, _⟩
    · exact absurd same bareHealth
    · exact ⟨rfl, rfl⟩
    · exact absurd split (base_extends_bare accepted rest)
  · rcases reaches_below registry deployment path b t right with
      ⟨same, _, _⟩ | ⟨same, _, _⟩ | ⟨other, split', _, below'⟩
    · rw [same] at split elsewhere
      exact absurd below (healthBelow a rest s.toList split elsewhere)
    · rw [same] at split
      exact absurd split (base_extends_bare accepted rest)
    · have equal : rest.toList = other.toList := by
        have texts := congrArg String.toList (split.symm.trans split')
        simpa using texts
      rw [← equal] at below'
      obtain ⟨sameEndpoint, sameSegment⟩ := below_unique (by decide) (folder_free registry free) _ a b _ _ below below'
      exact ⟨sameEndpoint, String.toList_inj.mp sameSegment⟩

end Accepted

namespace Router

theorem dispatch_cases (router : Router) (path : String) (endpoint : Endpoint) (segment : String)
    (dispatched : router.dispatch? path = some (endpoint, segment)) :
    ∃ pattern, (pattern, endpoint) ∈ router ∧ pattern.capture? path = some segment ∧
      (pattern.isExact = false → ∀ route ∈ router, route.1.isExact = true → route.1.capture? path = none) := by
  rw [dispatch?, List.partition_eq_filter_filter] at dispatched
  dsimp only at dispatched
  rcases Option.or_eq_some_iff.mp dispatched with closed | ⟨unmatched, opened⟩
  · obtain ⟨⟨pattern, target⟩, member, captured⟩ := List.exists_of_findSome?_eq_some closed
    obtain ⟨inside, exact⟩ := List.mem_filter.mp member
    obtain ⟨cut, taken, same⟩ := Option.map_eq_some_iff.mp captured
    cases same
    refine ⟨pattern, inside, taken, ?_⟩
    intro opened
    rw [opened] at exact
    cases exact
  · obtain ⟨⟨pattern, target⟩, member, captured⟩ := List.exists_of_findSome?_eq_some opened
    obtain ⟨cut, taken, same⟩ := Option.map_eq_some_iff.mp captured
    cases same
    refine ⟨pattern, (List.mem_filter.mp member).1, taken, ?_⟩
    intro _ route inside exact
    have missed := List.findSome?_eq_none_iff.mp unmatched route (List.mem_filter.mpr ⟨inside, exact⟩)
    exact Option.map_eq_none_iff.mp missed

theorem dispatch_present (router : Router) (path : String) (pattern : Pattern) (endpoint : Endpoint) (segment : String)
    (member : (pattern, endpoint) ∈ router) (captured : pattern.capture? path = some segment) :
    ∃ target cut, router.dispatch? path = some (target, cut) := by
  cases dispatched : router.dispatch? path with
  | some result => exact ⟨result.1, result.2, rfl⟩
  | none =>
      rw [dispatch?, List.partition_eq_filter_filter] at dispatched
      obtain ⟨closed, opened⟩ := Option.or_eq_none_iff.mp dispatched
      cases exact : pattern.isExact with
      | true =>
          have missed := List.findSome?_eq_none_iff.mp closed (pattern, endpoint) (List.mem_filter.mpr ⟨member, exact⟩)
          simp [captured] at missed
      | false =>
          have missed := List.findSome?_eq_none_iff.mp opened (pattern, endpoint)
            (List.mem_filter.mpr ⟨member, by simp [exact]⟩)
          simp [captured] at missed

theorem artifact_route_head (registry : Registry) (deployment : Deployment) :
    (if registry.rule.folder.isEmpty then deployment.basePath
      else deployment.basePath ++ registry.rule.folder ++ "/") = deployment.basePath ++ registry.rule.folderHead := by
  unfold ArtifactRule.folderHead
  split <;> simp [String.append_assoc]

theorem mem_routes_iff (registry : Registry) (deployment : Deployment) (pattern : Pattern) (endpoint : Endpoint) :
    (pattern, endpoint) ∈ routes registry deployment ↔
      (pattern, endpoint) = (.exact "/healthz", .health) ∨
      (pattern, endpoint) = (.exact deployment.basePath, .home) ∨
      (pattern, endpoint) = (.param (deployment.basePath ++ "samples/") sampleParameter "", .sample) ∨
      (pattern, endpoint) = (.param (deployment.basePath ++ "samples/") sampleParameter "/", .sample) ∨
      (pattern, endpoint) = (.exact (deployment.basePath ++ "api/samples"), .summaries) ∨
      (pattern, endpoint) = (.param (deployment.basePath ++ "api/samples/") sampleParameter "", .view) ∨
      (pattern, endpoint) =
        (.param (deployment.basePath ++ registry.rule.folderHead) fileParameter "", .artifact) ∨
      deployment.isRoot = false ∧
        (pattern, endpoint) = (.exact (Text.trimTrailingSlashes deployment.basePath), .home) := by
  have tail : (pattern, endpoint) ∈
      (if deployment.isRoot then []
        else [(Pattern.exact (Text.trimTrailingSlashes deployment.basePath), Endpoint.home)]) ↔
      deployment.isRoot = false ∧
        (pattern, endpoint) = (.exact (Text.trimTrailingSlashes deployment.basePath), .home) := by
    cases deployment.isRoot <;> simp
  rw [routes, artifact_route_head, List.mem_append, tail]
  simp only [List.mem_cons, List.not_mem_nil, or_false, or_assoc]

theorem empty_opens (c : Char) (first : "".toList.head? = some c) : c = '/' := by
  simp at first

theorem slash_opens (c : Char) (first : "/".toList.head? = some c) : c = '/' := by
  simpa [eq_comm] using first

theorem dispatch_reaches (registry : Registry) (deployment : Deployment) (path : String) (endpoint : Endpoint)
    (segment : String) (dispatched : (routes registry deployment).dispatch? path = some (endpoint, segment)) :
    Reaches registry deployment path endpoint segment := by
  obtain ⟨pattern, member, captured, unmatched⟩ := dispatch_cases _ path endpoint segment dispatched
  rcases (mem_routes_iff registry deployment pattern endpoint).mp member with
    same | same | same | same | same | same | same | ⟨inner, same⟩ <;> cases same
  · obtain ⟨rfl, rfl⟩ := (Pattern.capture_exact_iff _ path segment).mp captured
    exact .health
  · obtain ⟨rfl, rfl⟩ := (Pattern.capture_exact_iff _ path segment).mp captured
    exact .home
  · obtain ⟨rfl, plain, present⟩ := (Pattern.capture_param_iff _ _ _ path segment empty_opens).mp captured
    rw [String.append_empty] at present ⊢
    exact .sample segment plain present
  · obtain ⟨rfl, plain, _⟩ := (Pattern.capture_param_iff _ _ _ path segment slash_opens).mp captured
    exact .sampleSlash segment plain
  · obtain ⟨rfl, rfl⟩ := (Pattern.capture_exact_iff _ path segment).mp captured
    exact .summaries
  · obtain ⟨rfl, plain, present⟩ := (Pattern.capture_param_iff _ _ _ path segment empty_opens).mp captured
    rw [String.append_empty] at present ⊢
    exact .view segment plain present
  · obtain ⟨rfl, plain, present⟩ := (Pattern.capture_param_iff _ _ _ path segment empty_opens).mp captured
    have missed := unmatched rfl (.exact "/healthz", .health)
      ((mem_routes_iff registry deployment _ _).mpr (.inl rfl)) rfl
    rw [String.append_empty] at present missed ⊢
    refine .artifact segment plain present ?_
    intro clash
    rw [clash] at missed
    simp [Pattern.capture?] at missed
  · obtain ⟨rfl, rfl⟩ := (Pattern.capture_exact_iff _ path segment).mp captured
    exact .bare inner

theorem reaches_dispatched (registry : Registry) (deployment : Deployment) (path : String) (endpoint : Endpoint)
    (segment : String) (reaches : Reaches registry deployment path endpoint segment) :
    ∃ target cut, (routes registry deployment).dispatch? path = some (target, cut) := by
  have member := mem_routes_iff registry deployment
  cases reaches with
  | health =>
      exact dispatch_present _ _ (.exact "/healthz") .health "" ((member _ _).mpr (by simp))
        ((Pattern.capture_exact_iff _ _ _).mpr ⟨rfl, rfl⟩)
  | home =>
      exact dispatch_present _ _ (.exact deployment.basePath) .home "" ((member _ _).mpr (by simp))
        ((Pattern.capture_exact_iff _ _ _).mpr ⟨rfl, rfl⟩)
  | bare inner =>
      exact dispatch_present _ _ (.exact (Text.trimTrailingSlashes deployment.basePath)) .home ""
        ((member _ _).mpr (by simp [inner])) ((Pattern.capture_exact_iff _ _ _).mpr ⟨rfl, rfl⟩)
  | sample _ plain present =>
      exact dispatch_present _ _ (.param (deployment.basePath ++ "samples/") sampleParameter "") .sample segment
        ((member _ _).mpr (by simp))
        ((Pattern.capture_param_iff _ _ _ _ _ empty_opens).mpr ⟨by simp, plain, by simpa using present⟩)
  | sampleSlash _ plain =>
      exact dispatch_present _ _ (.param (deployment.basePath ++ "samples/") sampleParameter "/") .sample segment
        ((member _ _).mpr (by simp)) ((Pattern.capture_param_iff _ _ _ _ _ slash_opens).mpr ⟨rfl, plain, by simp⟩)
  | summaries =>
      exact dispatch_present _ _ (.exact (deployment.basePath ++ "api/samples")) .summaries ""
        ((member _ _).mpr (by simp)) ((Pattern.capture_exact_iff _ _ _).mpr ⟨rfl, rfl⟩)
  | view _ plain present =>
      exact dispatch_present _ _ (.param (deployment.basePath ++ "api/samples/") sampleParameter "") .view segment
        ((member _ _).mpr (by simp))
        ((Pattern.capture_param_iff _ _ _ _ _ empty_opens).mpr ⟨by simp, plain, by simpa using present⟩)
  | artifact _ plain present _ =>
      exact dispatch_present _ _ (.param (deployment.basePath ++ registry.rule.folderHead) fileParameter "") .artifact
        segment ((member _ _).mpr (by simp))
        ((Pattern.capture_param_iff _ _ _ _ _ empty_opens).mpr ⟨by simp, plain, by simpa using present⟩)

section Accepted

variable {basePath : String} {deployment : Deployment}

theorem clash_none (patterns : List Pattern) (apart : patterns.Pairwise fun a b => a.clashes b = false) :
    clash? patterns = none := by
  induction patterns with
  | nil => rfl
  | cons pattern rest ih =>
      obtain ⟨first, others⟩ := List.pairwise_cons.mp apart
      have none : ¬ rest.any pattern.clashes = true := by
        intro clash
        obtain ⟨other, member, clashes⟩ := List.any_eq_true.mp clash
        rw [first other member] at clashes
        cases clashes
      rw [clash?, if_neg none, ih others]

theorem folder_head_apart (registry : Registry) (free : ensureFolderFree registry = .ok ()) :
    registry.rule.folderHead ≠ "samples/" ∧ registry.rule.folderHead ≠ "api/samples/" := by
  have behind := folder_segments registry.rule "" (by simp)
  obtain ⟨samples, api⟩ := folder_free registry free
  rw [String.append_empty] at behind
  constructor
  · intro same
    rw [same, show Text.segments "samples/".toList = ["samples".toList, []] by decide] at behind
    rcases parts : registry.rule.folderSegments with _ | ⟨first, others⟩
    · simp [parts] at behind
    · rw [parts, List.cons_append] at behind
      exact samples (by rw [parts, List.head?_cons, (List.cons.inj behind).1])
  · intro same
    rw [same, show Text.segments "api/samples/".toList = ["api".toList, "samples".toList, []] by decide] at behind
    rcases parts : registry.rule.folderSegments with _ | ⟨first, others⟩
    · simp [parts] at behind
    · rw [parts, List.cons_append] at behind
      exact api (by rw [parts, List.head?_cons, (List.cons.inj behind).1])

theorem routes_clash (accepted : Deployment.ofBasePath basePath = .ok deployment) (registry : Registry)
    (free : ensureFolderFree registry = .ok ()) :
    (routes registry deployment).Pairwise fun a b => a.1.clashes b.1 = true →
      a = (.exact "/healthz", .health) ∧ b = (.exact (Text.trimTrailingSlashes deployment.basePath), .home) ∧
        "/healthz" = Text.trimTrailingSlashes deployment.basePath := by
  have health : ∀ rest, rest ≠ "healthz" → "/healthz" ≠ deployment.basePath ++ rest :=
    fun rest other same => other (health_below_root accepted rest same)
  have healthBase : "/healthz" ≠ deployment.basePath := by simpa using health "" (by decide)
  have healthApi := health "api/samples" (by decide)
  have bare := base_extends_bare accepted
  have bareBase : deployment.basePath ≠ Text.trimTrailingSlashes deployment.basePath := by
    simpa [eq_comm] using bare ""
  have bareApi := (bare "api/samples").symm
  have behind : ∀ a b : String, a ≠ b → deployment.basePath ++ a ≠ deployment.basePath ++ b := by
    intro a b different same
    have texts := congrArg String.toList same
    simp only [String.toList_append, List.append_cancel_left_eq] at texts
    exact different (String.toList_inj.mp texts)
  have baseApi : deployment.basePath ≠ deployment.basePath ++ "api/samples" := by
    simpa using behind "" "api/samples" (by decide)
  have pages := behind "samples/" "api/samples/" (by decide)
  obtain ⟨samples, api⟩ := folder_head_apart registry free
  have pageFiles := behind "samples/" registry.rule.folderHead samples.symm
  have viewFiles := behind "api/samples/" registry.rule.folderHead api.symm
  rw [routes, artifact_route_head]
  cases deployment.isRoot <;>
    simp only [List.cons_append, List.nil_append, List.append_nil, List.pairwise_cons, List.mem_cons, List.not_mem_nil,
      forall_eq_or_imp, false_imp_iff, imp_true_iff, and_true, List.Pairwise.nil, Pattern.clashes,
      beq_eq_false_iff_ne.mpr healthBase, beq_eq_false_iff_ne.mpr healthApi, beq_eq_false_iff_ne.mpr bareBase,
      beq_eq_false_iff_ne.mpr bareApi, beq_eq_false_iff_ne.mpr baseApi, beq_eq_false_iff_ne.mpr pages,
      beq_eq_false_iff_ne.mpr pageFiles, beq_eq_false_iff_ne.mpr viewFiles, Bool.false_and, beq_self_eq_true,
      bne_self_eq_false, Bool.false_or, Bool.true_and, show ("" == "/") = false by decide, if_true, Bool.false_eq_true,
      if_false, beq_iff_eq, true_and, imp_self]

theorem bare_health (accepted : Deployment.ofBasePath basePath = .ok deployment) :
    "/healthz" = Text.trimTrailingSlashes deployment.basePath ↔ deployment.basePath = "/healthz/" := by
  constructor
  · intro bare
    rw [Deployment.base_path_slash accepted, ← bare]
    rfl
  · intro same
    rw [same]
    decide

theorem routes_apart (accepted : Deployment.ofBasePath basePath = .ok deployment)
    (notHealth : deployment.basePath ≠ "/healthz/") (registry : Registry) (free : ensureFolderFree registry = .ok ()) :
    ((routes registry deployment).map Prod.fst).Pairwise fun a b => a.clashes b = false := by
  rw [List.pairwise_map]
  refine (routes_clash accepted registry free).imp ?_
  intro a b only
  cases clash : a.1.clashes b.1 with
  | false => rfl
  | true =>
      obtain ⟨_, _, bare⟩ := only clash
      exact absurd ((bare_health accepted).mp bare) notHealth

theorem routes_rooted (accepted : Deployment.ofBasePath basePath = .ok deployment)
    (rooted : deployment.basePath.toList.head? = some '/') (registry : Registry) :
    ∀ pattern ∈ (routes registry deployment).map Prod.fst, pattern.isRooted = true := by
  have below : ∀ (pattern : Pattern) (rest : String), pattern.text = deployment.basePath ++ rest →
      pattern.isRooted = true := by
    intro pattern rest same
    rw [Pattern.isRooted, same, String.toList_append, List.head?_append, rooted]
    rfl
  have opened : ∀ head name tail : String, (Pattern.param (deployment.basePath ++ head) name tail).isRooted = true := by
    intro head name tail
    exact below _ (head ++ ":" ++ name ++ tail) (by simp only [Pattern.text, String.append_assoc])
  have bare : deployment.isRoot = false → (Text.trimTrailingSlashes deployment.basePath).toList.head? = some '/' := by
    intro inner
    have slash := Deployment.base_path_slash accepted
    cases stem : (Text.trimTrailingSlashes deployment.basePath).toList with
    | nil =>
        rw [String.toList_eq_nil_iff.mp stem] at slash
        rw [Deployment.isRoot, slash] at inner
        cases inner
    | cons c rest =>
        rw [slash, String.toList_append, stem] at rooted
        exact rooted
  intro pattern member
  obtain ⟨⟨_, endpoint⟩, inside, rfl⟩ := List.mem_map.mp member
  rcases (mem_routes_iff registry deployment _ endpoint).mp inside with
    same | same | same | same | same | same | same | ⟨inner, same⟩ <;> cases same
  · decide
  · exact below _ "" (by simp [Pattern.text])
  · exact opened "samples/" _ _
  · exact opened "samples/" _ _
  · exact below _ "api/samples" rfl
  · exact opened "api/samples/" _ _
  · exact opened registry.rule.folderHead _ _
  · simp [Pattern.isRooted, Pattern.text, bare inner]

theorem fault_rooted (accepted : Deployment.ofBasePath basePath = .ok deployment)
    (rooted : deployment.basePath.toList.head? = some '/') (registry : Registry) :
    fault? (routes registry deployment) = (clash? ((routes registry deployment).map Prod.fst)).map .clash := by
  have allRooted : ((routes registry deployment).map Prod.fst).find? (fun pattern => !pattern.isRooted) = none := by
    rw [List.find?_eq_none]
    intro pattern member
    simp [routes_rooted accepted rooted registry pattern member]
  rw [fault?, allRooted]

theorem build_ok (accepted : Deployment.ofBasePath basePath = .ok deployment)
    (rooted : deployment.basePath.toList.head? = some '/') (notHealth : deployment.basePath ≠ "/healthz/")
    (registry : Registry) (free : ensureFolderFree registry = .ok ()) :
    build registry deployment = .ok (routes registry deployment) := by
  have faultless : fault? (routes registry deployment) = none := by
    rw [fault_rooted accepted rooted, clash_none _ (routes_apart accepted notHealth registry free)]
    rfl
  rw [build, faultless]

theorem built_routes (registry : Registry) (deployment : Deployment) (router : Router)
    (made : build registry deployment = .ok router) : router = routes registry deployment := by
  unfold build at made
  dsimp only at made
  split at made
  · cases made
  · exact (Except.ok.inj made).symm

theorem dispatch_iff (accepted : Deployment.ofBasePath basePath = .ok deployment)
    (notHealth : deployment.basePath ≠ "/healthz/") (registry : Registry) (free : ensureFolderFree registry = .ok ())
    (path : String) (endpoint : Endpoint) (segment : String) :
    (routes registry deployment).dispatch? path = some (endpoint, segment) ↔
      Reaches registry deployment path endpoint segment := by
  refine ⟨dispatch_reaches registry deployment path endpoint segment, ?_⟩
  intro reaches
  obtain ⟨target, cut, dispatched⟩ := reaches_dispatched registry deployment path endpoint segment reaches
  have reached := dispatch_reaches registry deployment path target cut dispatched
  obtain ⟨rfl, rfl⟩ := reaches_unique accepted notHealth registry free path endpoint target segment cut reaches reached
  exact dispatched

end Accepted

end Router

end Showcase.Server
