import Showcase.Proofs.Template
/-!
Escaping as a code. An escaped text has no mark, and every ampersand in it begins one of five entities. One pass from left to
right that puts its character in the place of each entity gives the text back, and every text of this form is an escaped one.
-/
set_option autoImplicit false

namespace Showcase.Html

def entities : List (String × Char) :=
  [("&amp;", '&'), ("&lt;", '<'), ("&gt;", '>'), ("&quot;", '"'), ("&#39;", '\'')]

def EntitiesOnly (text : List Char) : Prop :=
  ∀ rest, '&' :: rest <:+ text → ∃ entity ∈ entities, entity.1.toList <+: '&' :: rest

structure Escaped (text : List Char) : Prop where
  unmarked : ∀ c ∈ text, isMark c = false
  entitiesOnly : EntitiesOnly text

/-- What one pass from left to right makes of a text. It looks for an entity where it stands and goes on behind it, so
what an entity is replaced by is not read again. -/
inductive Decoded : List Char → List Char → Prop
  | done : Decoded [] []
  | entity (entity : String × Char) (rest raw : List Char) (listed : entity ∈ entities) (behind : Decoded rest raw) :
      Decoded (entity.1.toList ++ rest) (entity.2 :: raw)
  | other (c : Char) (rest raw : List Char) (plain : ∀ entity ∈ entities, ¬ entity.1.toList <+: c :: rest)
      (behind : Decoded rest raw) : Decoded (c :: rest) (c :: raw)

theorem entity_written (entity : String × Char) (listed : entity ∈ entities) :
    entity.1.toList = escapeChar entity.2 := by
  simp only [entities, List.mem_cons, List.not_mem_nil, or_false] at listed
  rcases listed with rfl | rfl | rfl | rfl | rfl <;> rfl

theorem entity_opens (entity : String × Char) (listed : entity ∈ entities) :
    ∃ name, entity.1.toList = '&' :: name ∧ '&' ∉ name := by
  rw [entity_written entity listed]
  simp only [entities, List.mem_cons, List.not_mem_nil, or_false] at listed
  rcases listed with rfl | rfl | rfl | rfl | rfl
  all_goals exact ⟨_, rfl, by decide⟩

theorem escape_char_cases (c : Char) :
    (∃ entity ∈ entities, c = entity.2) ∧ (c = '&' ∨ isMark c = true) ∨
      c ≠ '&' ∧ isMark c = false ∧ escapeChar c = [c] := by
  unfold escapeChar
  split
  · simp [entities]
  · simp [entities, isMark]
  · simp [entities, isMark]
  · simp [entities, isMark]
  · simp [entities, isMark]
  · right
    simp_all [isMark]

theorem suffix_behind (name rest tail : List Char) (apart : '&' ∉ name) (inside : '&' :: tail <:+ name ++ rest) :
    '&' :: tail <:+ rest := by
  induction name with
  | nil => exact inside
  | cons c name ih =>
      rw [List.mem_cons, not_or] at apart
      rw [List.cons_append, List.suffix_cons_iff] at inside
      rcases inside with same | inside
      · exact absurd (List.cons.inj same).1 apart.1
      · exact ih apart.2 inside

theorem entities_only_step (c : Char) (rest : List Char) (only : EntitiesOnly rest) :
    EntitiesOnly (escapeChar c ++ rest) := by
  intro tail inside
  rcases escape_char_cases c with ⟨⟨entity, listed, rfl⟩, _⟩ | ⟨different, _, kept⟩
  · obtain ⟨name, opened, apart⟩ := entity_opens entity listed
    rw [← entity_written entity listed, opened, List.cons_append, List.suffix_cons_iff] at inside
    rcases inside with same | inside
    · refine ⟨entity, listed, ?_⟩
      rw [same, opened]
      exact ⟨rest, rfl⟩
    · exact only tail (suffix_behind name rest tail apart inside)
  · rw [kept] at inside
    exact only tail (suffix_behind [c] rest tail (by simpa using different.symm) inside)

theorem entities_only_escape (raw : List Char) : EntitiesOnly (escapeChars raw) := by
  induction raw with
  | nil =>
      intro rest inside
      cases List.suffix_nil.mp inside
  | cons c raw ih =>
      rw [escape_chars_cons]
      exact entities_only_step c (escapeChars raw) ih

theorem escape_escaped (raw : String) : Escaped (escape raw).toList := by
  refine ⟨escape_members raw, ?_⟩
  rw [escape, String.toList_ofList]
  exact entities_only_escape raw.toList

theorem Escaped.behind (front rest : List Char) (escaped : Escaped (front ++ rest)) : Escaped rest :=
  ⟨fun c member => escaped.unmarked c (List.mem_append_right front member),
    fun tail inside => escaped.entitiesOnly tail (inside.trans (List.suffix_append front rest))⟩

theorem Escaped.kept (c : Char) (rest : List Char) (escaped : Escaped (c :: rest))
    (plain : ∀ entity ∈ entities, ¬ entity.1.toList <+: c :: rest) : escapeChar c = [c] := by
  rcases escape_char_cases c with ⟨_, ampersand | mark⟩ | ⟨_, _, kept⟩
  · subst ampersand
    obtain ⟨entity, listed, begins⟩ := escaped.entitiesOnly rest List.suffix_rfl
    exact absurd begins (plain entity listed)
  · rw [escaped.unmarked c List.mem_cons_self] at mark
    cases mark
  · exact kept

theorem unescape_entity (entity : String × Char) (listed : entity ∈ entities) (rest : List Char) :
    unescapeChars (entity.1.toList ++ rest) = entity.2 :: unescapeChars rest := by
  rw [entity_written entity listed, unescape_escape_char]

theorem unescape_plain (c : Char) (rest : List Char) (plain : ∀ entity ∈ entities, ¬ entity.1.toList <+: c :: rest) :
    unescapeChars (c :: rest) = c :: unescapeChars rest := by
  have apart : ∀ d tail, c :: rest = escapeChar d ++ tail → (∃ entity ∈ entities, d = entity.2) → False := by
    rintro d tail same ⟨entity, listed, rfl⟩
    exact plain entity listed ⟨tail, by rw [same, entity_written entity listed]⟩
  rw [unescapeChars.eq_def]
  split
  · rename_i tail same
    exact (apart '&' tail same (by simp [entities])).elim
  · rename_i tail same
    exact (apart '<' tail same (by simp [entities])).elim
  · rename_i tail same
    exact (apart '>' tail same (by simp [entities])).elim
  · rename_i tail same
    exact (apart '"' tail same (by simp [entities])).elim
  · rename_i tail same
    exact (apart '\'' tail same (by simp [entities])).elim
  · rename_i same
    rw [(List.cons.inj same).1, (List.cons.inj same).2]
  · rename_i same
    cases same

theorem decoded_unescape (text : List Char) : Decoded text (unescapeChars text) := by
  -- By induction on the length, because an entity is passed over at once.
  induction size : text.length using Nat.strongRecOn generalizing text with
  | ind n ih =>
      cases text with
      | nil => exact .done
      | cons c rest =>
          by_cases begins : ∃ entity ∈ entities, entity.1.toList <+: c :: rest
          · obtain ⟨entity, listed, tail, same⟩ := begins
            obtain ⟨name, opened, _⟩ := entity_opens entity listed
            have shorter : tail.length < n := by
              rw [← size, ← same, opened, List.length_append, List.length_cons]
              omega
            rw [← same, unescape_entity entity listed]
            exact .entity entity tail _ listed (ih tail.length shorter tail rfl)
          · have plain : ∀ entity ∈ entities, ¬ entity.1.toList <+: c :: rest :=
              fun entity listed here => begins ⟨entity, listed, here⟩
            rw [unescape_plain c rest plain]
            exact .other c rest _ plain (ih rest.length (by simp [← size]) rest rfl)

theorem decoded_iff (text raw : List Char) : Decoded text raw ↔ unescapeChars text = raw := by
  constructor
  · intro decoded
    induction decoded with
    | done => rfl
    | entity entity rest raw listed _ ih => rw [unescape_entity entity listed, ih]
    | other c rest raw plain _ ih => rw [unescape_plain c rest plain, ih]
  · rintro rfl
    exact decoded_unescape text

theorem decoded_escape (text raw : List Char) (decoded : Decoded text raw) (escaped : Escaped text) :
    escapeChars raw = text := by
  induction decoded with
  | done => rfl
  | entity entity rest raw listed _ ih =>
      rw [escape_chars_cons, ← entity_written entity listed, ih (escaped.behind _ rest)]
  | other c rest raw plain _ ih =>
      rw [escape_chars_cons, escaped.kept c rest plain, ih (escaped.behind [c] rest), List.singleton_append]

theorem escape_unescape (text : String) (escaped : Escaped text.toList) : escape (unescape text) = text := by
  rw [escape, unescape, String.toList_ofList, decoded_escape text.toList _ (decoded_unescape text.toList) escaped,
    String.ofList_toList]

theorem escape_append (a b : String) : escape (a ++ b) = escape a ++ escape b := by
  simp [escape, escapeChars, String.ofList_append]

theorem decoded_unescape_iff (text decoded : String) : Decoded text.toList decoded.toList ↔ unescape text = decoded := by
  rw [decoded_iff, unescape]
  constructor
  · intro same
    rw [same, String.ofList_toList]
  · rintro rfl
    rw [String.toList_ofList]

/-- The pass has one result on every text. It takes escaping back, also in front of further text, and escaping takes the
pass back on the texts of the form above. -/
theorem escape_lossless :
    (∀ raw, Escaped (escape raw).toList) ∧
    (∀ text decoded : String, Decoded text.toList decoded.toList ↔ unescape text = decoded) ∧
    (∀ raw, unescape (escape raw) = raw) ∧
    (∀ raw rest, unescape (escape raw ++ rest) = raw ++ unescape rest) ∧
    (∀ text, Escaped text.toList → escape (unescape text) = text) ∧
    Function.Injective escape ∧
    ∀ a b, escape (a ++ b) = escape a ++ escape b :=
  ⟨escape_escaped, decoded_unescape_iff, unescape_escape, unescape_append, escape_unescape, escape_injective,
    escape_append⟩

theorem escape_lossless_nested :
    escape "&lt;<&#39" = "&amp;lt;&lt;&amp;#39" ∧ Escaped "&amp;lt;&lt;&amp;#39".toList ∧
      unescape "&amp;lt;&lt;&amp;#39" = "&lt;<&#39" ∧
      escape (unescape "&amp;lt;&lt;&amp;#39") = "&amp;lt;&lt;&amp;#39" := by
  obtain ⟨escaped, _, back, _, onto, _⟩ := escape_lossless
  have written : escape "&lt;<&#39" = "&amp;lt;&lt;&amp;#39" := by decide
  have safe := escaped "&lt;<&#39"
  have read := back "&lt;<&#39"
  rw [written] at safe read
  exact ⟨written, safe, read, onto _ safe⟩

end Showcase.Html
