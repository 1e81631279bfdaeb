import Showcase.FileTree.Path
import Showcase.Proofs.Text

set_option autoImplicit false

namespace Showcase.FileTree

namespace Path

def opened (base : String) : String :=
  if base.isEmpty || base.toList.getLast? == some '/' then base else base ++ "/"

theorem not_absolute (path : String) (plain : path.toList.head? ≠ some '/') : isAbsolute path = false := by
  simpa [isAbsolute] using plain

theorem join_plain (base relative : String) (plain : relative.toList.head? ≠ some '/') :
    join base relative = opened base ++ relative := by
  rw [join, not_absolute relative plain, if_neg Bool.false_ne_true, opened]
  split <;> rfl

theorem opened_cases (base : String) :
    base = "" ∧ opened base = "" ∨ (∃ before, base = before ++ "/") ∧ opened base = base ∨
      base ≠ "" ∧ opened base = base ++ "/" := by
  unfold opened
  by_cases empty : base = ""
  · exact .inl (by simp [empty])
  · right
    by_cases last : base.toList.getLast? = some '/'
    · obtain ⟨before, text⟩ := List.getLast?_eq_some_iff.mp last
      refine .inl ⟨⟨String.ofList before, ?_⟩, by simp [last]⟩
      rw [← String.toList_inj, text]
      simp
    · exact .inr ⟨empty, by simp [empty, last]⟩

theorem join_nonempty (base relative : String) (inner : base ≠ "") (plain : relative.toList.head? ≠ some '/') :
    join base relative ≠ "" := by
  rw [join_plain base relative plain]
  rcases opened_cases base with ⟨empty, _⟩ | ⟨_, same⟩ | ⟨_, same⟩
  · exact absurd empty inner
  · simp [same, inner]
  · simp [same]

theorem last_append (base relative : String) (nonempty : relative ≠ "") :
    (base ++ relative).toList.getLast? = relative.toList.getLast? := by
  cases text : relative.toList with
  | nil => exact absurd (String.toList_eq_nil_iff.mp text) nonempty
  | cons c rest => simp [text, List.getLast?_append, List.getLast?_cons]

theorem opened_append (base relative : String) (nonempty : relative ≠ "") :
    opened (base ++ relative) = base ++ opened relative := by
  have whole : base ++ relative ≠ "" := by simp [nonempty]
  unfold opened
  rw [last_append base relative nonempty]
  by_cases slash : relative.toList.getLast? = some '/'
  · simp [slash]
  · simp [slash, whole, nonempty, String.append_assoc]

theorem opened_opened (base : String) : opened (opened base) = opened base := by
  rcases opened_cases base with ⟨rfl, same⟩ | ⟨_, same⟩ | ⟨_, same⟩
  · rw [same, same]
  · rw [same, same]
  · rw [same, opened_append base "/" (by decide)]
    rfl

theorem opened_join (base relative : String) (plain : relative.toList.head? ≠ some '/') :
    opened (join base relative) = opened base ++ opened relative := by
  rw [join_plain base relative plain]
  by_cases empty : relative = ""
  · subst empty
    rw [String.append_empty, opened_opened, show opened "" = "" by rfl, String.append_empty]
  · exact opened_append (opened base) relative empty

theorem join_join (base middle relative : String) (middlePlain : middle.toList.head? ≠ some '/')
    (plain : relative.toList.head? ≠ some '/') :
    join (join base middle) relative = opened base ++ opened middle ++ relative := by
  rw [join_plain _ relative plain, opened_join base middle middlePlain]

theorem join_segments_cons (first : List Char) (rest : List (List Char)) (more : rest ≠ []) :
    joinSegments (first :: rest) = first ++ '/' :: joinSegments rest := by
  cases rest with
  | nil => exact absurd rfl more
  | cons next others => simp [joinSegments, List.intercalate]

theorem join_segments_append (before after : List (List Char)) (start : before ≠ []) (more : after ≠ []) :
    joinSegments (before ++ after) = joinSegments before ++ '/' :: joinSegments after := by
  induction before with
  | nil => exact absurd rfl start
  | cons first rest ih =>
      cases rest with
      | nil =>
          rw [List.singleton_append, join_segments_cons first after more]
          simp [joinSegments, List.intercalate]
      | cons next others =>
          rw [List.cons_append, join_segments_cons first _ (by simp), ih (by simp), join_segments_cons first _ (by simp),
            List.append_assoc, List.cons_append]

theorem join_segments_segments (text : List Char) : joinSegments (Text.segments text) = text := by
  induction text with
  | nil => rfl
  | cons c rest ih =>
      by_cases slash : Text.isSlash c = true
      · rw [Text.segments, if_pos slash, join_segments_cons [] _ (Text.segments_ne_nil rest), ih,
          (Text.is_slash_iff c).mp slash]
        rfl
      · cases cut : Text.segments rest with
        | nil => exact absurd cut (Text.segments_ne_nil rest)
        | cons head others =>
            rw [cut] at ih
            rw [Text.segments, if_neg slash, cut, ← ih]
            cases others with
            | nil => simp [joinSegments, List.intercalate]
            | cons next more => simp [join_segments_cons _ (next :: more)]

theorem mem_join_segments (parts : List (List Char)) (part : List Char) (member : part ∈ parts) (c : Char)
    (inside : c ∈ part) : c ∈ joinSegments parts := by
  induction parts with
  | nil => cases member
  | cons first rest ih =>
      cases rest with
      | nil =>
          rw [List.mem_singleton.mp member] at inside
          simpa [joinSegments, List.intercalate] using inside
      | cons next others =>
          rw [join_segments_cons first _ (by simp)]
          rcases List.mem_cons.mp member with rfl | later
          · exact List.mem_append_left _ inside
          · exact List.mem_append_right _ (List.mem_cons_of_mem _ (ih later))

theorem split_head_cases (text : List Char) :
    text = (splitHead text).1 ++ (splitHead text).2 ∧
      ((splitHead text).1 = ['/'] ∨
        (splitHead text).1 = ['.'] ∧ ((splitHead text).2 = [] ∨ (splitHead text).2.head? = some '/') ∨
        (splitHead text).1 = [] ∧ text.head? ≠ some '/') := by
  fun_cases splitHead text with
  | case1 rest => simp
  | case2 => simp
  | case3 rest => simp
  | case4 text rooted dot dots =>
      refine ⟨rfl, .inr (.inr ⟨rfl, ?_⟩)⟩
      intro slash
      obtain ⟨rest, rfl⟩ := List.head?_eq_some_iff.mp slash
      exact rooted rest rfl

end Path

theorem is_name_iff (text : String) :
    isName text = true ↔ text ≠ "" ∧ text ≠ "." ∧ text ≠ ".." ∧ '/' ∉ text.toList := by
  simp only [isName, Bool.and_eq_true, bne_iff_ne, Bool.not_eq_true', List.any_eq_false, Text.is_slash_iff, and_assoc]
  have slashless : (∀ c ∈ text.toList, ¬ c = '/') ↔ '/' ∉ text.toList :=
    ⟨fun plain member => plain '/' member rfl, fun plain c member same => plain (same ▸ member)⟩
  rw [slashless]

theorem Name.slashless (name : Name) : '/' ∉ name.text.toList := ((is_name_iff name.text).mp name.valid).2.2.2

theorem Name.nonempty (name : Name) : name.text ≠ "" := ((is_name_iff name.text).mp name.valid).1

theorem Name.plain (name : Name) : name.text.toList.head? ≠ some '/' :=
  fun slash => name.slashless (List.mem_of_mem_head? slash)

theorem Name.of_text (name : Name) : Name.ofText? name.text = some name := by
  rw [Name.ofText?, dif_pos name.valid]

theorem Step.of_name (name : Name) : Step.ofSegment? name.text.toList = some (.name name) := by
  obtain ⟨nonempty, dot, dots, _⟩ := (is_name_iff name.text).mp name.valid
  have other : ∀ text segment, text.toList = segment → name.text ≠ text → name.text.toList ≠ segment := by
    rintro text segment rfl different same
    exact different (String.toList_inj.mp same)
  rw [Step.ofSegment?, if_neg (other "" [] (by decide) nonempty), if_neg (other "." ['.'] (by decide) dot),
    if_neg (other ".." ['.', '.'] (by decide) dots), String.ofList_toList, Name.of_text]
  rfl

theorem Step.of_segment_some (segment : List Char) (nonempty : segment ≠ []) (slashless : '/' ∉ segment) :
    (Step.ofSegment? segment).isSome = true := by
  unfold ofSegment?
  split
  · contradiction
  · split
    · rfl
    · split
      · rfl
      · rename_i _ dot dots
        have proper : isName (String.ofList segment) = true := by
          have other : ∀ text : String, segment ≠ text.toList → String.ofList segment ≠ text := by
            rintro text different rfl
            exact different String.toList_ofList.symm
          exact (is_name_iff _).mpr ⟨other "" nonempty, other "." dot, other ".." dots, by simpa using slashless⟩
        simp [Name.ofText?, proper]

theorem Step.of_names (segments : List (List Char))
    (proper : ∀ segment ∈ segments, isName (String.ofList segment) = true) :
    ∃ names : List Name, names.map (fun name => name.text.toList) = segments ∧
      segments.filterMap Step.ofSegment? = names.map Step.name := by
  induction segments with
  | nil => exact ⟨[], rfl, rfl⟩
  | cons segment rest ih =>
      obtain ⟨names, texts, steps⟩ := ih (fun other member => proper other (List.mem_cons_of_mem segment member))
      let name : Name := ⟨String.ofList segment, proper segment List.mem_cons_self⟩
      have text : name.text.toList = segment := String.toList_ofList
      refine ⟨name :: names, by rw [List.map_cons, text, texts], ?_⟩
      have first := Step.of_name name
      rw [text] at first
      rw [List.filterMap_cons, first, List.map_cons, steps]

namespace Route

theorem steps_name (name : Name) : (ofText name.text).steps = [.name name] := by
  rw [ofText, Text.segments_plain _ name.slashless]
  simp [Step.of_name]

theorem steps_slash (before after : String) :
    (ofText (before ++ "/" ++ after)).steps = (ofText before).steps ++ (ofText after).steps := by
  simp only [ofText, String.toList_append, show "/".toList = ['/'] by decide, List.append_assoc, List.singleton_append,
    Text.segments_slash, List.filterMap_append]

theorem steps_join (base relative : String) (plain : relative.toList.head? ≠ some '/') :
    (ofText (Path.join base relative)).steps = (ofText base).steps ++ (ofText relative).steps := by
  have none : (ofText "").steps = [] := by decide
  rw [Path.join_plain base relative plain]
  rcases Path.opened_cases base with ⟨rfl, same⟩ | ⟨⟨before, rfl⟩, same⟩ | ⟨_, same⟩
  · rw [same, String.empty_append, none, List.nil_append]
  · have base_steps := steps_slash before ""
    rw [String.append_empty, none, List.append_nil] at base_steps
    rw [same, steps_slash, base_steps]
  · rw [same, steps_slash]

theorem absolute_join (base relative : String) (plain : relative.toList.head? ≠ some '/') :
    (ofText (Path.join base relative)).absolute = (ofText base).absolute := by
  simp only [ofText, Path.isAbsolute]
  rw [Path.join_plain base relative plain]
  rcases Path.opened_cases base with ⟨rfl, same⟩ | ⟨⟨before, rfl⟩, same⟩ | ⟨nonempty, same⟩
  · simpa [same] using plain
  · rw [same, String.toList_append, List.head?_append]
    simp
  · cases text : base.toList with
    | nil => exact absurd (String.toList_eq_nil_iff.mp text) nonempty
    | cons c rest => simp [same, text]

theorem slash_join (base relative : String) (plain : relative.toList.head? ≠ some '/') (nonempty : relative ≠ "") :
    (ofText (Path.join base relative)).slash = (ofText relative).slash := by
  simp only [ofText]
  rw [Path.join_plain base relative plain, Path.last_append _ relative nonempty]

theorem steps_nonempty (text : String) (c : Char) (member : c ∈ text.toList) (different : c ≠ '/') :
    (ofText text).steps ≠ [] := by
  obtain ⟨segment, found, inside⟩ := Text.segments_cover text.toList c member different
  have slashless : '/' ∉ segment := fun slash => (Text.segments_chars _ segment found '/' slash).2 rfl
  obtain ⟨step, made⟩ := Option.isSome_iff_exists.mp
    (Step.of_segment_some segment (List.ne_nil_of_mem inside) slashless)
  exact List.ne_nil_of_mem (List.mem_filterMap.mpr ⟨segment, found, made⟩)

end Route

namespace Path

theorem parent_parts (path parent : String) (above : parent? path = some parent) :
    parent = "" ∧ isAbsolute path = false ∨
      ∃ kept cut last c, parent = String.ofList ((splitHead path.toList).1 ++ joinSegments kept) ∧
        Text.segments (splitHead path.toList).2 = kept ++ cut ∧ last ∈ cut ∧ c ∈ last := by
  have start := (split_head_cases path.toList).1
  unfold parent? at above
  cases parts : splitHead path.toList with
  | mk head body =>
      rw [parts] at start above
      dsimp only at start above ⊢
      cases trimmed : (Text.segments body).reverse.dropWhile isInert with
      | nil =>
          rw [trimmed] at above
          by_cases dotted : head = ['.']
          · rw [if_pos dotted] at above
            exact .inl ⟨(Option.some.inj above).symm, by simp [isAbsolute, start, dotted]⟩
          · rw [if_neg dotted] at above
            cases above
      | cons last before =>
          rw [trimmed] at above
          have active : isInert last = false := by
            have stopped := List.head?_dropWhile_not isInert (Text.segments body).reverse
            rw [trimmed] at stopped
            simpa using stopped
          obtain ⟨c, inLast⟩ : ∃ c, c ∈ last := List.exists_mem_of_ne_nil last (by rintro rfl; cases active)
          obtain ⟨outer, whole, _⟩ := Text.reverse_drop_split isInert (Text.segments body)
          obtain ⟨inner, kept, _⟩ := Text.reverse_drop_split isInert before.reverse
          rw [trimmed, List.reverse_cons] at whole
          rw [List.reverse_reverse] at kept
          refine .inr ⟨_, inner ++ last :: outer, last, c, (Option.some.inj above).symm, ?_, by simp, inLast⟩
          rw [whole, ← List.append_assoc, ← kept, List.append_assoc]
          rfl

theorem parent_cases (path parent : String) (above : parent? path = some parent) :
    isAbsolute parent = isAbsolute path ∧ ((Route.ofText parent).steps = [] ∨
      ∃ rest c, path = parent ++ "/" ++ rest ∧ c ∈ rest.toList ∧ c ≠ '/') := by
  obtain ⟨rfl, relative⟩ | ⟨kept, cut, last, c, rfl, whole, inCut, inLast⟩ := parent_parts path parent above
  · exact ⟨relative.symm, .inl (by decide)⟩
  · obtain ⟨split, heads⟩ := split_head_cases path.toList
    generalize (splitHead path.toList).1 = head at *
    generalize (splitHead path.toList).2 = body at *
    obtain ⟨inBody, different⟩ :=
      Text.segments_chars body last (by rw [whole]; exact List.mem_append_right _ inCut) c inLast
    have slashed : ∀ text rest : List Char, path.toList = text ++ '/' :: rest → c ∈ rest →
        ∃ rest c, path = String.ofList text ++ "/" ++ rest ∧ c ∈ rest.toList ∧ c ≠ '/' := by
      intro text rest same later
      refine ⟨String.ofList rest, c, ?_, by simpa using later, different⟩
      rw [← String.toList_inj, same]
      simp
    by_cases none : kept = []
    · rw [none, show joinSegments [] = [] from rfl, List.append_nil]
      rcases heads with rfl | ⟨rfl, empty | rooted⟩ | ⟨rfl, relative⟩
      · exact ⟨by simp [isAbsolute, split], .inl (by decide)⟩
      · rw [empty] at inBody
        cases inBody
      · obtain ⟨rest, rfl⟩ := List.head?_eq_some_iff.mp rooted
        have later : c ∈ rest := (List.mem_cons.mp inBody).resolve_left different
        exact ⟨by simp [isAbsolute, split], .inr (slashed ['.'] rest split later)⟩
      · exact ⟨by simpa [isAbsolute] using relative, .inl (by decide)⟩
    · have joined := join_segments_segments body
      rw [whole, join_segments_append kept cut none (List.ne_nil_of_mem inCut)] at joined
      rw [← joined, ← List.append_assoc] at split
      refine ⟨?_, .inr (slashed _ _ split (mem_join_segments cut last inCut c inLast))⟩
      -- neither text starts with a slash unless the head is one
      cases text : head ++ joinSegments kept with
      | nil =>
          obtain ⟨rfl, empty⟩ := List.append_eq_nil_iff.mp text
          rw [empty] at split
          rcases heads with same | ⟨same, _⟩ | ⟨_, relative⟩
          · cases same
          · cases same
          · exact absurd (by rw [split]; rfl) relative
      | cons d rest => simp [isAbsolute, split, text]

end Path

theorem Route.parent_steps (path parent : String) (above : Path.parent? path = some parent) :
    (ofText parent).absolute = (ofText path).absolute ∧ (ofText parent).steps <+: (ofText path).steps.dropLast := by
  obtain ⟨absolute, none | ⟨rest, c, rfl, member, different⟩⟩ := Path.parent_cases path parent above
  · exact ⟨absolute, by rw [none]; exact List.nil_prefix⟩
  · refine ⟨absolute, ?_⟩
    rw [steps_slash, List.dropLast_append_of_ne_nil (steps_nonempty rest c member different)]
    exact List.prefix_append _ _

end Showcase.FileTree
