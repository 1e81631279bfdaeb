import Showcase.Proofs.Deployment
import Showcase.Proofs.Naming

set_option autoImplicit false

namespace Showcase

namespace Text

theorem pair_append (a b : Char) (front back : List Char) :
    [a, b] <:+: front ++ back ↔ [a, b] <:+: front ∨ [a, b] <:+: back ∨ [a] <:+ front ∧ [b] <+: back := by
  induction front with
  | nil => simp
  | cons c rest ih =>
      rw [List.cons_append, List.infix_cons_iff, ih, List.infix_cons_iff]
      cases rest with
      | nil =>
          have last : [a] <:+ [c] ↔ a = c := by simp [List.suffix_cons_iff]
          have across : [a, b] <+: c :: back ↔ a = c ∧ [b] <+: back := List.cons_prefix_cons
          have short : ¬ [a, b] <+: [c] ∧ ¬ [a, b] <:+: ([] : List Char) ∧ ¬ [a] <:+ ([] : List Char) := by simp
          rw [List.nil_append, across, last]
          simp only [short, false_and, false_or, or_false]
          exact or_comm
      | cons d others =>
          have inner : [a] <:+ c :: d :: others ↔ [a] <:+ d :: others := by
            rw [List.suffix_cons_iff]
            simp
          rw [inner]
          simp only [List.cons_append, List.cons_prefix_cons, List.nil_prefix, and_true, or_assoc]

end Text

namespace BasePath

structure Stem (text stem : String) : Prop where
  run : ∃ count, text = stem ++ Text.slashes count
  ends : ¬ ['/'] <:+ stem.toList

inductive Bare : String → String → Prop where
  | slash (rest : String) : Bare ("/" ++ rest) rest
  | plain (text : String) (slashless : ¬ ['/'] <+: text.toList) : Bare text text

theorem stem_trimmed (text : String) : Stem text (Text.trimTrailingSlashes text) := by
  obtain ⟨run, split, each⟩ := Text.trim_end_prefix Text.isSlash text.toList
  constructor
  · refine ⟨run.length, ?_⟩
    rw [← Text.slashes_of_members run each, Text.trimTrailingSlashes, ← String.ofList_append, ← split,
      String.ofList_toList]
  · rintro ⟨front, cut⟩
    exact trimmed_last text (by rw [← cut, List.getLast?_append]; rfl)

theorem trimmed_of_stem (text stem : String) (trimmed : Stem text stem) : Text.trimTrailingSlashes text = stem := by
  obtain ⟨⟨count, rfl⟩, ends⟩ := trimmed
  have whole : Text.trimEnd Text.isSlash stem.toList = stem.toList := by
    obtain ⟨run, split, each⟩ := Text.trim_end_prefix Text.isSlash stem.toList
    cases run using List.reverseRecOn with
    | nil => simpa using split.symm
    | append_singleton before last =>
        have slash : last = '/' := (Text.is_slash_iff last).mp (each last (by simp))
        rw [slash, ← List.append_assoc] at split
        exact absurd ⟨_, split.symm⟩ ends
  rw [Text.trimTrailingSlashes, String.toList_append, Text.trim_end_append _ _ _ (Text.slashes_members count), whole,
    String.ofList_toList]

theorem bare_stripped (text : String) : Bare text (stripLeadingSlash text) := by
  unfold stripLeadingSlash
  split
  · rename_i rest opened
    have whole : text = "/" ++ String.ofList rest := by
      rw [← String.ofList_toList (s := text), opened]
      exact @String.ofList_append ['/'] rest
    rw [whole]
    exact .slash (String.ofList rest)
  · rename_i closed
    refine .plain text ?_
    rintro ⟨rest, opened⟩
    exact closed rest opened.symm

theorem strip_slash (rest : String) : stripLeadingSlash ("/" ++ rest) = rest := by
  have opened : ("/" ++ rest).toList = '/' :: rest.toList := by simp
  rw [stripLeadingSlash, opened]
  exact String.ofList_toList

section Stem

variable {basePath stem : String} (trimmed : Stem basePath stem)
include trimmed

theorem normalize_stem : normalize basePath = stem ++ "/" := by
  rw [normalize, trimmed_of_stem basePath stem trimmed]
  split
  · rename_i empty
    rw [String.isEmpty_iff.mp empty]
    rfl
  · rfl

theorem normalize_ends :
    ['/'] <:+ (normalize basePath).toList ∧ ¬ ['/', '/'] <:+ (normalize basePath).toList := by
  rw [normalize_stem trimmed, String.toList_append, show "/".toList = ['/'] from rfl]
  refine ⟨List.suffix_append _ _, ?_⟩
  rintro ⟨front, doubled⟩
  rw [List.append_cons front '/' ['/']] at doubled
  exact trimmed.ends ⟨front, List.append_cancel_right doubled⟩

theorem normalize_eq_iff (other otherStem : String) (otherTrimmed : Stem other otherStem) :
    normalize basePath = normalize other ↔ stem = otherStem := by
  rw [normalize_stem trimmed, normalize_stem otherTrimmed]
  constructor
  · intro same
    have lists := congrArg String.toList same
    rw [String.toList_append, String.toList_append] at lists
    exact String.toList_injective (List.append_cancel_right lists)
  · rintro rfl
    rfl

theorem doubled_iff (bare : String) :
    ['/', '/'] <:+: (stem ++ "/" ++ bare).toList ↔
      ['/', '/'] <:+: stem.toList ∨ ['/', '/'] <:+: bare.toList ∨ ['/'] <+: bare.toList := by
  -- The stem ends without a slash, so two slashes meet at the junction only if one opens what follows.
  have single : ¬ ['/', '/'] <:+: ['/'] := by decide
  have opens : ['/'] <:+ stem.toList ++ ['/'] := List.suffix_append _ _
  rw [String.toList_append, String.toList_append, show "/".toList = ['/'] from rfl, Text.pair_append, Text.pair_append]
  simp only [single, trimmed.ends, opens, false_and, or_false, true_and]

end Stem

theorem resolver_laws (basePath relative : String) :
    ∃ stem bare, Stem basePath stem ∧ Bare relative bare ∧
      (normalize basePath = stem ++ "/" ∧ ['/'] <:+ (normalize basePath).toList ∧
        ¬ ['/', '/'] <:+ (normalize basePath).toList) ∧
      normalize (normalize basePath) = normalize basePath ∧
      (∀ other otherStem, Stem other otherStem → (normalize basePath = normalize other ↔ stem = otherStem)) ∧
      resolve basePath relative = stem ++ "/" ++ bare ∧
      resolve (normalize basePath) relative = resolve basePath relative ∧
      (¬ ['/'] <+: relative.toList → resolve basePath ("/" ++ relative) = resolve basePath relative) ∧
      (['/', '/'] <:+: (resolve basePath relative).toList ↔
        ['/', '/'] <:+: stem.toList ∨ ['/', '/'] <:+: bare.toList ∨ ['/'] <+: bare.toList) := by
  have trimmed := stem_trimmed basePath
  have stripped := bare_stripped relative
  have joined : resolve basePath relative =
      Text.trimTrailingSlashes basePath ++ "/" ++ stripLeadingSlash relative := by
    rw [resolve, normalize_stem trimmed]
  refine ⟨_, _, trimmed, stripped, ⟨normalize_stem trimmed, normalize_ends trimmed⟩, normalize_normalize basePath,
    normalize_eq_iff trimmed, joined, ?_, ?_, ?_⟩
  · rw [resolve, normalize_normalize, resolve]
  · intro slashless
    have plain : stripLeadingSlash relative = relative := by
      apply strip_leading_slash_plain
      intro opened
      exact slashless (List.singleton_prefix_iff_head?_eq_some.mpr opened)
    rw [resolve, strip_slash, resolve, plain]
  · rw [joined]
    exact doubled_iff trimmed _

theorem resolver_laws_padded :
    Stem "/a//b///" "/a//b" ∧ normalize "/a//b///" = normalize "/a//b" ∧ ¬ ['/'] <+: "c".toList ∧
      resolve "/a//b///" ("/" ++ "c") = resolve "/a//b///" "c" ∧ resolve "/a//b///" "c" = "/a//b/c" := by
  have trimmed : Stem "/a//b///" "/a//b" := ⟨⟨3, by decide⟩, by decide⟩
  obtain ⟨stem, _, _, _, _, _, same, _, _, padded, _⟩ := resolver_laws "/a//b///" "c"
  have here : stem = "/a//b" := (same _ _ trimmed).mp rfl
  exact ⟨trimmed, (same "/a//b" "/a//b" ⟨⟨0, by decide⟩, by decide⟩).mpr here, by decide, padded (by decide), by decide⟩

end BasePath

end Showcase
