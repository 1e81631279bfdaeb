import Showcase.Deployment
import Showcase.Proofs.Text

set_option autoImplicit false

namespace Showcase

namespace BasePath

theorem normalize_slash (basePath : String) :
    normalize basePath = Text.trimTrailingSlashes (normalize basePath) ++ "/" := by
  have stripped : Text.trimTrailingSlashes (normalize basePath) = Text.trimTrailingSlashes basePath := by
    have again : Text.trimTrailingSlashes (Text.trimTrailingSlashes basePath ++ "/") =
        Text.trimTrailingSlashes basePath := by
      have dropped : ∀ c ∈ ['/'], Text.isSlash c = true := by simp [Text.isSlash]
      rw [Text.trimTrailingSlashes, String.toList_append, show "/".toList = ['/'] from rfl,
        Text.trim_end_append _ _ _ dropped, Text.trimTrailingSlashes, String.toList_ofList, Text.trim_end_idempotent]
    by_cases empty : (Text.trimTrailingSlashes basePath).isEmpty = true
    · rw [normalize, if_pos empty]
      rw [String.isEmpty_iff.mp empty] at again ⊢
      exact again
    · rw [normalize, if_neg empty, again]
  rw [stripped, normalize]
  by_cases empty : (Text.trimTrailingSlashes basePath).isEmpty = true
  · rw [if_pos empty, String.isEmpty_iff.mp empty]
    rfl
  · rw [if_neg empty]

theorem normalize_normalize (basePath : String) : normalize (normalize basePath) = normalize basePath := by
  have slash := normalize_slash basePath
  generalize normalize basePath = base at slash
  unfold normalize
  by_cases empty : (Text.trimTrailingSlashes base).isEmpty = true
  · rw [if_pos empty, slash, String.isEmpty_iff.mp empty]
    rfl
  · rw [if_neg empty, ← slash]

theorem normalize_members (basePath : String) (c : Char) (member : c ∈ (normalize basePath).toList) :
    c ∈ basePath.toList ∨ c = '/' := by
  unfold normalize at member
  dsimp only at member
  split at member
  · exact .inr (by simpa [root] using member)
  · rw [String.toList_append, List.mem_append] at member
    rcases member with inside | slash
    · obtain ⟨run, split, _⟩ := Text.trim_end_prefix Text.isSlash basePath.toList
      left
      rw [split]
      exact List.mem_append_left _ (by simpa [Text.trimTrailingSlashes] using inside)
    · exact .inr (by simpa using slash)

structure Plain (c : Char) : Prop where
  star : c ≠ '*'
  colon : c ≠ ':'
  query : c ≠ '?'
  fragment : c ≠ '#'
  visible : Text.isBlank c = false
  printed : Text.isControl c = false

theorem plain_slash : Plain '/' := ⟨by decide, by decide, by decide, by decide, by decide, by decide⟩

theorem fault_none_iff (basePath : String) :
    fault? basePath = none ↔ ¬ ['/', '/'] <+: basePath.toList ∧ ∀ c ∈ basePath.toList, Plain c := by
  constructor
  · intro faultless
    unfold fault? at faultless
    dsimp only at faultless
    split at faultless
    · cases faultless
    · rename_i hostless
      split at faultless
      · cases faultless
      · rename_i patternless
        split at faultless
        · cases faultless
        · rename_i queryless
          split at faultless
          · cases faultless
          · rename_i blankless
            simp only [Bool.or_eq_true, List.isPrefixOf_iff_prefix, not_or] at hostless
            refine ⟨hostless.2, ?_⟩
            intro c member
            simp only [List.any_eq_true, not_exists, not_and] at patternless queryless blankless
            have pattern := patternless c member
            have query := queryless c member
            have blank := blankless c member
            simp only [Bool.or_eq_true, beq_iff_eq, not_or, Bool.not_eq_true] at pattern query blank
            exact ⟨pattern.1, pattern.2, query.1, query.2, blank.1, blank.2⟩
  · rintro ⟨hostless, plain⟩
    have schemeless : Text.contains [':', '/', '/'] basePath.toList = false := by
      rw [Bool.eq_false_iff, Ne, Text.contains_iff]
      intro inside
      exact (plain ':' (inside.subset List.mem_cons_self)).colon rfl
    have front : ['/', '/'].isPrefixOf basePath.toList = false := by
      rw [Bool.eq_false_iff, Ne, List.isPrefixOf_iff_prefix]
      exact hostless
    have none_of : ∀ p : Char → Bool, (∀ c, Plain c → p c = false) → ¬ basePath.toList.any p = true := by
      intro p absent found
      obtain ⟨c, member, holds⟩ := List.any_eq_true.mp found
      rw [absent c (plain c member)] at holds
      cases holds
    simp only [fault?, schemeless, front, Bool.or_self, Bool.false_eq_true, if_false]
    rw [if_neg (none_of _ fun c plain => by simp [plain.star, plain.colon]),
      if_neg (none_of _ fun c plain => by simp [plain.query, plain.fragment]),
      if_neg (none_of _ fun c plain => by simp [plain.visible, plain.printed])]

theorem trimmed_last (basePath : String) : (Text.trimTrailingSlashes basePath).toList.getLast? ≠ some '/' := by
  intro slash
  have stopped := Text.trim_end_last Text.isSlash basePath.toList '/' (by simpa [Text.trimTrailingSlashes] using slash)
  simp [Text.isSlash] at stopped

theorem normalize_hostless (basePath : String) (hostless : ¬ ['/', '/'] <+: basePath.toList) :
    ¬ ['/', '/'] <+: (normalize basePath).toList := by
  obtain ⟨run, split, _⟩ := Text.trim_end_prefix Text.isSlash basePath.toList
  have last := trimmed_last basePath
  rw [Text.trimTrailingSlashes, String.toList_ofList] at last
  rw [split] at hostless
  unfold normalize
  dsimp only
  split
  · decide
  · rw [Text.trimTrailingSlashes, String.toList_append, String.toList_ofList]
    generalize Text.trimEnd Text.isSlash basePath.toList = stem at hostless last
    -- behind one slash alone the slash at the end would be the second one, but such a stem is trimmed
    rcases stem with _ | ⟨first, _ | ⟨second, others⟩⟩
    · decide
    · simpa [eq_comm] using last
    · simpa using hostless

theorem strip_leading_slash_plain (path : String) (plain : path.toList.head? ≠ some '/') :
    stripLeadingSlash path = path := by
  unfold stripLeadingSlash
  split
  · rename_i rest text
    simp [text] at plain
  · rfl

end BasePath

namespace Deployment

inductive Obtained (deployment : Deployment) : Prop where
  | basePath (basePath : String) (accepted : ofBasePath basePath = .ok deployment)
  | root (same : deployment = Deployment.root)
  | mode (mode : DeployMode) (same : deployment = ofMode mode)

theorem obtained_accepted (deployment : Deployment) (obtained : Obtained deployment) :
    ∃ basePath, ofBasePath basePath = .ok deployment := by
  cases obtained with
  | basePath basePath accepted => exact ⟨basePath, accepted⟩
  | root same =>
      subst same
      exact ⟨BasePath.root, by decide⟩
  | mode mode same =>
      subst same
      refine ⟨mode.basePath, ?_⟩
      cases mode <;> decide

section Accepted

variable {basePath : String} {deployment : Deployment}

theorem of_base_path_cases (accepted : ofBasePath basePath = .ok deployment) :
    BasePath.fault? basePath = none ∧ deployment.basePath = BasePath.normalize basePath := by
  unfold ofBasePath at accepted
  cases faultless : BasePath.fault? basePath with
  | some fault =>
      rw [faultless] at accepted
      cases accepted
  | none =>
      rw [faultless] at accepted
      refine ⟨rfl, ?_⟩
      rw [← Except.ok.inj accepted]

theorem base_path_slash (accepted : ofBasePath basePath = .ok deployment) :
    deployment.basePath = Text.trimTrailingSlashes deployment.basePath ++ "/" := by
  rw [(of_base_path_cases accepted).2]
  exact BasePath.normalize_slash basePath

theorem resolve_append (accepted : ofBasePath basePath = .ok deployment) (relative : String)
    (plain : relative.toList.head? ≠ some '/') : deployment.resolve relative = deployment.basePath ++ relative := by
  rw [resolve, BasePath.resolve, (of_base_path_cases accepted).2, BasePath.normalize_normalize,
    BasePath.strip_leading_slash_plain relative plain]

theorem base_path_hostless (accepted : ofBasePath basePath = .ok deployment) :
    ¬ ['/', '/'] <+: deployment.basePath.toList := by
  obtain ⟨faultless, normal⟩ := of_base_path_cases accepted
  rw [normal]
  exact BasePath.normalize_hostless basePath ((BasePath.fault_none_iff basePath).mp faultless).1

theorem base_path_plain (accepted : ofBasePath basePath = .ok deployment) :
    ∀ c ∈ deployment.basePath.toList, BasePath.Plain c := by
  obtain ⟨faultless, normal⟩ := of_base_path_cases accepted
  intro c member
  rw [normal] at member
  rcases BasePath.normalize_members basePath c member with inside | slash
  · exact ((BasePath.fault_none_iff basePath).mp faultless).2 c inside
  · rw [slash]
    exact BasePath.plain_slash

theorem base_path_marks (accepted : ofBasePath basePath = .ok deployment) :
    ∀ c ∈ deployment.basePath.toList, c ≠ '?' ∧ c ≠ '#' :=
  fun c member => ⟨(base_path_plain accepted c member).query, (base_path_plain accepted c member).fragment⟩

structure Settled (deployment : Deployment) : Prop where
  closed : ['/'] <:+ deployment.basePath.toList
  single : ¬ ['/', '/'] <:+ deployment.basePath.toList
  hostless : ¬ ['/', '/'] <+: deployment.basePath.toList
  again : ofBasePath deployment.basePath = .ok deployment

theorem accepted_settled (accepted : ofBasePath basePath = .ok deployment) : Settled deployment := by
  have slash := base_path_slash accepted
  have last := BasePath.trimmed_last deployment.basePath
  have hostless := base_path_hostless accepted
  have normal : BasePath.normalize deployment.basePath = deployment.basePath := by
    rw [(of_base_path_cases accepted).2, BasePath.normalize_normalize]
  refine ⟨?_, ?_, hostless, ?_⟩
  · rw [slash, String.toList_append]
    exact List.suffix_append _ _
  · rintro ⟨front, split⟩
    rw [slash, String.toList_append, show "/".toList = ['/'] from rfl, List.append_cons front '/' ['/']] at split
    have stem := List.append_cancel_right split
    exact last (by rw [← stem, List.getLast?_append]; rfl)
  · rw [ofBasePath, (BasePath.fault_none_iff deployment.basePath).mpr ⟨hostless, base_path_plain accepted⟩, normal]

end Accepted

end Deployment

end Showcase
