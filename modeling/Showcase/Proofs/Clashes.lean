import Showcase.Proofs.Registry
import Showcase.Proofs.Routes

set_option autoImplicit false

namespace Showcase.Server

def isMark (c : Char) : Bool := c == ':' || c == '*'

def Unmarked (text : List Char) : Prop := ∀ c ∈ text, isMark c = false

theorem unmarked_append (first last : List Char) : Unmarked (first ++ last) ↔ Unmarked first ∧ Unmarked last :=
  List.forall_mem_append

theorem unmarked_literal (text : List Char) (none : text.any isMark = false) : Unmarked text := by
  intro c member
  simpa using List.any_eq_false.mp none c member

def Continues (rest : String) : Prop := ∀ c, rest.toList.head? = some c → c = '/'

/-- The same route twice, or one open segment under two names. -/
inductive Clash : String → String → Prop
  | same (text : String) : Clash text text
  | renamed (head first second : String) (rest others : String) (different : first ≠ second)
      (whole : '/' ∉ first.toList ∧ '/' ∉ second.toList) (behind : Continues rest ∧ Continues others) :
      Clash (head ++ ":" ++ first ++ rest) (head ++ ":" ++ second ++ others)

namespace Pattern

def Plain : Pattern → Prop
  | .exact path => Unmarked path.toList
  | .param head name tail =>
      Unmarked (head.toList ++ name.toList ++ tail.toList) ∧ '/' ∉ name.toList ∧ Continues tail

theorem unmarked (text : List Char) (plain : Unmarked text) : ':' ∉ text ∧ '*' ∉ text :=
  ⟨fun colon => absurd (plain _ colon) (by decide), fun star => absurd (plain _ star) (by decide)⟩

theorem plain_marks (pattern : Pattern) (plain : pattern.Plain) :
    pattern.text.toList.count ':' = (if pattern.isExact then 0 else 1) ∧ '*' ∉ pattern.text.toList := by
  cases pattern with
  | exact path =>
      obtain ⟨colon, star⟩ := unmarked _ plain
      exact ⟨List.count_eq_zero.mpr colon, star⟩
  | param head name tail =>
      obtain ⟨colon, star⟩ := unmarked _ plain.1
      simp only [List.mem_append, not_or] at colon star
      have counts : head.toList.count ':' = 0 ∧ name.toList.count ':' = 0 ∧ tail.toList.count ':' = 0 :=
        ⟨List.count_eq_zero.mpr colon.1.1, List.count_eq_zero.mpr colon.1.2, List.count_eq_zero.mpr colon.2⟩
      have mark : ":".toList = [':'] := rfl
      simp [text, isExact, mark, counts, star]

theorem cut_at_colon (head rest before after : List Char) (free : ':' ∉ head ∧ ':' ∉ rest)
    (same : head ++ ':' :: rest = before ++ ':' :: after) : head = before ∧ rest = after := by
  rcases List.append_eq_append_iff.mp same with ⟨more, longer, behind⟩ | ⟨more, shorter, behind⟩
  · cases more with
    | nil => exact ⟨by simpa using longer.symm, (List.cons.inj behind).2⟩
    | cons c more =>
        obtain ⟨rfl, inner⟩ := List.cons.inj behind
        exact absurd (inner ▸ List.mem_append_right more List.mem_cons_self) free.2
  · cases more with
    | nil => exact ⟨by simpa using shorter, (List.cons.inj behind).2.symm⟩
    | cons c more =>
        obtain ⟨rfl, _⟩ := List.cons.inj behind
        exact absurd (shorter ▸ List.mem_append_right before List.mem_cons_self) free.1

theorem cut_segment (name tail first rest : List Char) (whole : '/' ∉ name ∧ '/' ∉ first)
    (opens : ∀ c, tail.head? = some c → c = '/') (others : ∀ c, rest.head? = some c → c = '/')
    (same : name ++ tail = first ++ rest) : name = first ∧ tail = rest :=
  Text.cut_unique Text.isSlash name tail first rest ⟨Text.slashless name whole.1, Text.slashless first whole.2⟩
    (fun c head => (Text.is_slash_iff c).mpr (opens c head)) (fun c head => (Text.is_slash_iff c).mpr (others c head)) same

theorem text_param (head name tail : String) :
    (param head name tail).text.toList = head.toList ++ ':' :: (name.toList ++ tail.toList) := by
  have mark : ":".toList = [':'] := rfl
  simp [text, mark]

theorem text_renamed (pattern : Pattern) (plain : pattern.Plain) (head name rest : String)
    (whole : '/' ∉ name.toList) (behind : Continues rest) (same : pattern.text = head ++ ":" ++ name ++ rest) :
    pattern = param head name rest := by
  have written : pattern.text.toList = head.toList ++ ':' :: (name.toList ++ rest.toList) := by
    rw [same, ← text_param]
    rfl
  cases pattern with
  | exact path =>
      have colon : ':' ∈ path.toList := by
        rw [show path.toList = _ from written]
        exact List.mem_append_right _ List.mem_cons_self
      exact absurd colon (unmarked _ plain).1
  | param own parameter tail =>
      obtain ⟨clean, segment, opens⟩ := plain
      have free := (unmarked _ clean).1
      simp only [List.mem_append, not_or] at free
      rw [text_param] at written
      obtain ⟨heads, behindHeads⟩ :=
        cut_at_colon _ _ _ _ ⟨free.1.1, by simp [free.1.2, free.2]⟩ written
      obtain ⟨names, tails⟩ := cut_segment _ _ _ _ ⟨segment, whole⟩ opens behind behindHeads
      rw [String.toList_inj.mp heads, String.toList_inj.mp names, String.toList_inj.mp tails]

theorem text_injective (a b : Pattern) (plain : a.Plain) (others : b.Plain) (same : a.text = b.text) : a = b := by
  cases b with
  | exact path =>
      cases a with
      | exact own => exact congrArg exact same
      | param head name tail =>
          have colon : ':' ∈ path.toList := by
            rw [show path = (param head name tail).text from same.symm, text_param]
            exact List.mem_append_right _ List.mem_cons_self
          exact absurd colon (unmarked _ others).1
  | param head name tail => exact text_renamed a plain head name tail others.2.1 others.2.2 same

theorem clashes_iff (a b : Pattern) (plain : a.Plain) (others : b.Plain) :
    a.clashes b = true ↔ Clash a.text b.text := by
  constructor
  · intro clash
    cases a with
    | exact path =>
        cases b with
        | exact other =>
            rw [eq_of_beq (show (path == other) = true from clash)]
            exact .same _
        | param => cases clash
    | param head name tail =>
        cases b with
        | exact => cases clash
        | param other parameter rest =>
            simp only [clashes, Bool.and_eq_true, Bool.or_eq_true, beq_iff_eq, bne_iff_ne] at clash
            obtain ⟨rfl, different | rfl⟩ := clash
            · exact .renamed head name parameter tail rest different ⟨plain.2.1, others.2.1⟩ ⟨plain.2.2, others.2.2⟩
            · by_cases different : name = parameter
              · rw [different]
                exact .same _
              · exact .renamed head name parameter tail tail different ⟨plain.2.1, others.2.1⟩
                  ⟨plain.2.2, others.2.2⟩
  · intro clash
    generalize left : a.text = first at clash
    generalize right : b.text = second at clash
    cases clash with
    | same text =>
        rw [text_injective a b plain others (left.trans right.symm)]
        cases b <;> simp [clashes]
    | renamed head name parameter rest more different whole behind =>
        rw [text_renamed a plain head name rest whole.1 behind.1 left,
          text_renamed b others head parameter more whole.2 behind.2 right]
        simp [clashes, different]

end Pattern

namespace Router

theorem folder_unmarked (registry : Registry) (faultless : registry.rule.fault? = none) :
    Unmarked registry.rule.folderHead.toList := by
  have folder : Unmarked registry.rule.folder.toList := by
    intro c member
    by_cases marked : c = ':' ∨ c = '*'
    · rcases ArtifactRule.folder_members faultless c member with allowed | rfl
      · rcases marked with rfl | rfl <;> cases allowed
      · decide
    · simpa [isMark] using marked
  rw [ArtifactRule.folderHead]
  split
  · exact unmarked_literal _ rfl
  · rw [String.toList_append]
    exact (unmarked_append _ _).mpr ⟨folder, unmarked_literal _ rfl⟩

section Accepted

variable {basePath : String} {deployment : Deployment}

theorem base_unmarked (accepted : Deployment.ofBasePath basePath = .ok deployment) :
    Unmarked deployment.basePath.toList := by
  intro c member
  obtain ⟨star, colon, _, _, _, _⟩ := Deployment.base_path_plain accepted c member
  simp [isMark, star, colon]

theorem routes_plain (accepted : Deployment.ofBasePath basePath = .ok deployment) (registry : Registry)
    (faultless : registry.rule.fault? = none) : ∀ route ∈ routes registry deployment, route.1.Plain := by
  have base := base_unmarked accepted
  have below : ∀ inner : String, Unmarked inner.toList → Unmarked (deployment.basePath ++ inner).toList := by
    intro inner clean
    rw [String.toList_append]
    exact (unmarked_append _ _).mpr ⟨base, clean⟩
  have bare : Unmarked (Text.trimTrailingSlashes deployment.basePath).toList := by
    rw [Deployment.base_path_slash accepted, String.toList_append] at base
    exact ((unmarked_append _ _).mp base).1
  have opened : ∀ head name tail : String, Unmarked head.toList → Unmarked name.toList → '/' ∉ name.toList →
      Unmarked tail.toList → Continues tail → (Pattern.param (deployment.basePath ++ head) name tail).Plain := by
    intro head name tail clean named whole behind opens
    refine ⟨?_, whole, opens⟩
    rw [unmarked_append, unmarked_append]
    exact ⟨⟨below head clean, named⟩, behind⟩
  have literal := unmarked_literal
  intro route member
  obtain ⟨pattern, endpoint⟩ := route
  rcases (mem_routes_iff registry deployment pattern endpoint).mp member with
    same | same | same | same | same | same | same | ⟨inner, same⟩ <;> cases same
  · exact literal "/healthz".toList rfl
  · exact base
  · exact opened "samples/" _ "" (literal _ rfl) (literal _ rfl) (by decide) (literal _ rfl) empty_opens
  · exact opened "samples/" _ "/" (literal _ rfl) (literal _ rfl) (by decide) (literal _ rfl) slash_opens
  · exact below "api/samples" (literal _ rfl)
  · exact opened "api/samples/" _ "" (literal _ rfl) (literal _ rfl) (by decide) (literal _ rfl) empty_opens
  · exact opened registry.rule.folderHead _ "" (folder_unmarked registry faultless) (literal _ rfl) (by decide)
      (literal _ rfl) empty_opens
  · exact bare

theorem routes_clash_iff (accepted : Deployment.ofBasePath basePath = .ok deployment) (registry : Registry)
    (free : ensureFolderFree registry = .ok ()) :
    (routes registry deployment).Pairwise fun a b => a.1.clashes b.1 = true ↔
      deployment.basePath = "/healthz/" ∧ a = (.exact "/healthz", .health) ∧ b = (.exact "/healthz", .home) := by
  apply (routes_clash accepted registry free).imp
  intro a b only
  constructor
  · intro clash
    obtain ⟨first, second, bare⟩ := only clash
    rw [← bare] at second
    exact ⟨(bare_health accepted).mp bare, first, second⟩
  · intro met
    obtain ⟨_, rfl, rfl⟩ := met
    decide

theorem health_pair (accepted : Deployment.ofBasePath basePath = .ok deployment)
    (health : deployment.basePath = "/healthz/") (registry : Registry) :
    ∃ between, routes registry deployment =
      (.exact "/healthz", .health) :: (between ++ [(.exact "/healthz", .home)]) := by
  have inner : deployment.isRoot = false := by
    rw [Deployment.isRoot, health]
    decide
  rw [routes, inner, ← (bare_health accepted).mpr health]
  exact ⟨_, rfl⟩

theorem build_health (accepted : Deployment.ofBasePath basePath = .ok deployment)
    (rooted : deployment.basePath.toList.head? = some '/') (health : deployment.basePath = "/healthz/")
    (registry : Registry) : build registry deployment = .error (.clash (.exact "/healthz")) := by
  obtain ⟨between, listed⟩ := health_pair accepted health registry
  have met : clash? ((routes registry deployment).map Prod.fst) = some (.exact "/healthz") := by
    rw [listed, List.map_cons, clash?, if_pos]
    rw [List.any_eq_true]
    exact ⟨.exact "/healthz", by simp, by decide⟩
  have fault : fault? (routes registry deployment) = some (.clash (.exact "/healthz")) := by
    rw [fault_rooted accepted rooted, met]
    rfl
  rw [build, fault]

end Accepted

section Admitted

variable {entries : List SampleEntry} {rule : ArtifactRule} {registry : Registry} {basePath : String}
  {deployment : Deployment}

theorem only_health_clashes (built : Registry.ofEntries entries rule = .ok registry)
    (free : ensureFolderFree registry = .ok ()) (accepted : Deployment.ofBasePath basePath = .ok deployment)
    (rooted : deployment.basePath.toList.head? = some '/') :
    (routes registry deployment).length = (if deployment.isRoot then 7 else 8) ∧
    (∀ route ∈ routes registry deployment,
      route.1.text.toList.head? = some '/' ∧ '*' ∉ route.1.text.toList ∧
        route.1.text.toList.count ':' = if route.1.isExact then 0 else 1) ∧
    ((routes registry deployment).Pairwise fun a b => Clash a.1.text b.1.text ↔
      deployment.basePath = "/healthz/" ∧ a = (.exact "/healthz", .health) ∧ b = (.exact "/healthz", .home)) ∧
    (deployment.basePath = "/healthz/" →
      [(.exact "/healthz", .health), (.exact "/healthz", .home)].Sublist (routes registry deployment)) ∧
    build registry deployment =
      if deployment.basePath = "/healthz/" then .error (.clash (.exact "/healthz"))
      else .ok (routes registry deployment) := by
  obtain ⟨_, _, faultless⟩ := Registry.of_entries_rule built
  have plain := routes_plain accepted registry faultless
  refine ⟨?_, ?_, ?_, ?_, ?_⟩
  · rw [routes]
    cases deployment.isRoot <;> rfl
  · intro route member
    obtain ⟨colons, star⟩ := Pattern.plain_marks route.1 (plain route member)
    have first := routes_rooted accepted rooted registry route.1 (List.mem_map_of_mem member)
    exact ⟨eq_of_beq first, star, colons⟩
  · apply (routes_clash_iff accepted registry free).imp_of_mem
    intro a b first second only
    rw [← Pattern.clashes_iff a.1 b.1 (plain a first) (plain b second)]
    exact only
  · intro health
    obtain ⟨between, listed⟩ := health_pair accepted health registry
    rw [listed]
    exact (List.sublist_append_right between _).cons_cons _
  · by_cases health : deployment.basePath = "/healthz/"
    · rw [if_pos health]
      exact build_health accepted rooted health registry
    · rw [if_neg health]
      exact build_ok accepted rooted health registry free

end Admitted

theorem only_health_clashes_flat : ∃ registry, Registry.ofEntries Catalog.builtinSamples ⟨"", "ll"⟩ = .ok registry ∧
    ensureFolderFree registry = .ok () ∧ Deployment.ofBasePath "/healthz" = .ok ⟨"/healthz/"⟩ ∧
    Deployment.ofBasePath "/healthz/a" = .ok ⟨"/healthz/a/"⟩ ∧
    build registry ⟨"/healthz/"⟩ = .error (.clash (.exact "/healthz")) ∧
    build registry ⟨"/healthz/a/"⟩ = .ok (routes registry ⟨"/healthz/a/"⟩) ∧
    (routes registry ⟨"/healthz/a/"⟩).Pairwise fun a b => ¬ Clash a.1.text b.1.text := by
  obtain ⟨registry, built⟩ :=
    Registry.of_entries_ok Catalog.builtinSamples ⟨"", "ll"⟩ (by decide) (by decide) (by decide)
  obtain ⟨_, ruled, _⟩ := Registry.of_entries_rule built
  have free : ensureFolderFree registry = .ok () := by
    rw [ensureFolderFree, ruled]
    decide
  have health : Deployment.ofBasePath "/healthz" = .ok ⟨"/healthz/"⟩ := by decide
  have below : Deployment.ofBasePath "/healthz/a" = .ok ⟨"/healthz/a/"⟩ := by decide
  obtain ⟨_, _, _, _, refused⟩ := only_health_clashes built free health rfl
  obtain ⟨_, _, apart, _, made⟩ := only_health_clashes built free below rfl
  refine ⟨registry, built, free, health, below, refused, made, ?_⟩
  apply apart.imp
  intro a b only clash
  exact absurd (only.mp clash).1 (by decide)

end Router

end Showcase.Server
