import Showcase.Json.Read
import Showcase.Proofs.Quoted
import Showcase.Proofs.Record
import Showcase.Proofs.Text

set_option autoImplicit false

namespace Showcase.Json

open Record

theorem quote_list (content : String) :
    (quote content).toList = '"' :: (content.toList.flatMap escapeChar ++ ['"']) := by
  rw [quote, String.toList_ofList]
  rfl

def Blank (text : List Char) : Prop := ∀ c ∈ text, isBlank c = true

theorem blank_nil : Blank [] := fun _ member => nomatch member

theorem skip_blanks_mark (blanks : List Char) (blank : Blank blanks) (mark : Char) (plain : isBlank mark = false)
    (rest : List Char) : skipBlanks (blanks ++ mark :: rest) = mark :: rest :=
  Text.skip_to_mark isBlank blanks blank mark plain rest

theorem next_key_close (first : Bool) (blanks rest : List Char) (blank : Blank blanks) :
    nextKey first (blanks ++ '\x7d' :: rest) = .ok (false, rest) := by
  rw [nextKey, skip_blanks_mark blanks blank '\x7d' rfl]
  rfl

theorem next_key_open (lead rest : List Char) (blank : Blank lead) :
    nextKey true (lead ++ '"' :: rest) = .ok (true, rest) := by
  rw [nextKey, skip_blanks_mark lead blank '"' rfl]
  rfl

theorem next_key_comma (back lead rest : List Char) (behind : Blank back) (blank : Blank lead) :
    nextKey false (back ++ ',' :: (lead ++ '"' :: rest)) = .ok (true, rest) := by
  rw [nextKey, skip_blanks_mark back behind ',' rfl]
  dsimp only
  rw [skip_blanks_mark lead blank '"' rfl]
  rfl

theorem text_open (input rest : List Char) (opened : skipBlanks input = '"' :: rest) :
    text input = (quotedBody rest).map fun (content, rest) => (String.ofList content, rest) := by
  rw [text, opened]
  rfl

theorem variant_open {α : Type} (ofName? : String → Option α) (input rest : List Char)
    (opened : skipBlanks input = '"' :: rest) : variant ofName? input = variantName ofName? ('"' :: rest) := by
  rw [variant, opened]
  rfl

section Scalars

variable {blanks : List Char} (blank : Blank blanks)
include blank

theorem text_quoted (content : String) (rest : List Char) :
    text (blanks ++ ((quote content).toList ++ rest)) = .ok (content, rest) := by
  rw [quote_list, List.cons_append, List.append_assoc, List.singleton_append,
    text_open _ _ (skip_blanks_mark blanks blank '"' rfl _), quoted_body_escaped]
  exact congrArg (fun content => Except.ok (content, rest)) String.ofList_toList

theorem sample_id_quoted (raw : String) (rest : List Char) :
    sampleId (blanks ++ ((quote raw).toList ++ rest)) =
      match SampleId.ofText? raw with
      | some id => .ok (id, rest)
      | none => .error (.value (.invalidId raw)) := by
  rw [sampleId, text_quoted blank raw rest]
  rfl

theorem variant_quoted {α : Type} (ofName? : String → Option α) (name : String) (a : α) (known : ofName? name = some a)
    (rest : List Char) : variant ofName? (blanks ++ ((quote name).toList ++ rest)) = .ok (a, rest) := by
  have named := @text_quoted [] blank_nil name rest
  rw [List.nil_append, quote_list, List.cons_append] at named
  rw [quote_list, List.cons_append]
  rw [variant_open _ _ _ (skip_blanks_mark blanks blank '"' rfl _), variantName, named]
  simp only [bind, Except.bind, known]
  rfl

theorem scalar_written (kind : Kind) (value : kind.Value) (rest : List Char) :
    scalar kind (blanks ++ ((scalarText kind value).toList ++ rest)) = .ok (value, rest) := by
  cases kind with
  | id =>
      have known : SampleId.ofText? value.text = some value := dif_pos value.valid
      have read := sample_id_quoted blank value.text rest
      rwa [known] at read
  | text => exact text_quoted blank value rest
  | flag =>
      cases value with
      | true =>
          change flag (blanks ++ 't' :: 'r' :: 'u' :: 'e' :: rest) = _
          rw [flag, skip_blanks_mark blanks blank 't' rfl]
          rfl
      | false =>
          change flag (blanks ++ 'f' :: 'a' :: 'l' :: 's' :: 'e' :: rest) = _
          rw [flag, skip_blanks_mark blanks blank 'f' rfl]
          rfl
  | code => exact variant_quoted blank ErrorCode.ofName? value.name value (by cases value <;> decide) rest
  | mode => exact variant_quoted blank DeployMode.ofName? value.name value (by cases value <;> decide) rest

end Scalars

structure Spacing where
  lead : List Char
  gap : List Char
  ending : List Char
  lead_blank : ∀ c ∈ lead, isBlank c = true
  gap_blank : ∀ c ∈ gap, isBlank c = true
  ending_blank : ∀ c ∈ ending, isBlank c = true

namespace Spacing

def none : Spacing := ⟨[], [], [], by simp, by simp, by simp⟩

def lines : Spacing :=
  ⟨['\n', ' ', ' '], [' '], ['\n'], by simp [isBlank], by simp [isBlank], by simp [isBlank]⟩

variable {fields : List Field}

def member (spacing : Spacing) (assignment : Assignment fields) : List Char :=
  spacing.lead ++ ((quote assignment.1.name).toList ++
    ':' :: (spacing.gap ++ (scalarText assignment.1.kind assignment.2).toList))

def further (spacing : Spacing) (assignments : List (Assignment fields)) : List Char :=
  assignments.flatMap (fun assignment => ',' :: spacing.member assignment) ++ (spacing.ending ++ ['\x7d'])

def object (spacing : Spacing) : List (Assignment fields) → List Char
  | [] => '\x7b' :: (spacing.ending ++ ['\x7d'])
  | first :: others => '\x7b' :: (spacing.member first ++ spacing.further others)

end Spacing

section Members

variable {fields : List Field} (distinct : (fields.map Field.name).Nodup) (spacing : Spacing)

include distinct in
theorem members_member (rounds : Nat) (first : Bool) (draft : Draft fields) (input : List Char)
    (assignment : Assignment fields) (rest : List Char) (fresh : draft.get? assignment.1 = none)
    (opened : nextKey first input = .ok (true, assignment.1.name.toList.flatMap escapeChar ++
      '"' :: ':' :: (spacing.gap ++ ((scalarText assignment.1.kind assignment.2).toList ++ rest)))) :
    members (rounds + 1) first draft input = members rounds false (draft.set assignment.1 assignment.2) rest := by
  have colon : skipBlanks (':' :: (spacing.gap ++ ((scalarText assignment.1.kind assignment.2).toList ++ rest))) =
      ':' :: (spacing.gap ++ ((scalarText assignment.1.kind assignment.2).toList ++ rest)) := rfl
  rw [members, opened]
  simp only [bind, Except.bind, Bool.not_true, Bool.false_eq_true, if_false, quoted_body_escaped, String.ofList_toList,
    assignment.1.find_name distinct, fresh, Option.isSome_none, colon, expect, if_true,
    scalar_written spacing.gap_blank]

include distinct in
theorem members_further (rounds : Nat) (draft : Draft fields) (assignments : List (Assignment fields))
    (enough : assignments.length < rounds) (separate : (assignments.map Sigma.fst).Nodup)
    (fresh : ∀ assignment ∈ assignments, draft.get? assignment.1 = none) (rest : List Char) :
    members rounds false draft (spacing.further assignments ++ rest) = .ok (draft.assign assignments, rest) := by
  induction assignments generalizing rounds draft with
  | nil =>
      obtain ⟨rounds, rfl⟩ := Nat.exists_eq_succ_of_ne_zero (Nat.ne_of_gt enough)
      have ending := next_key_close false spacing.ending rest spacing.ending_blank
      rw [Spacing.further, List.flatMap_nil, List.nil_append, List.append_assoc, List.singleton_append, members, ending]
      rfl
  | cons assignment others ih =>
      obtain ⟨rounds, rfl⟩ := Nat.exists_eq_succ_of_ne_zero (Nat.ne_of_gt (Nat.lt_of_le_of_lt (Nat.zero_le _) enough))
      rw [List.map_cons, List.nodup_cons] at separate
      have opened := next_key_comma [] spacing.lead (assignment.1.name.toList.flatMap escapeChar ++
        '"' :: ':' :: (spacing.gap ++ ((scalarText assignment.1.kind assignment.2).toList ++
          (spacing.further others ++ rest)))) blank_nil spacing.lead_blank
      rw [List.nil_append] at opened
      have text : spacing.further (assignment :: others) ++ rest =
          ',' :: (spacing.lead ++ '"' :: (assignment.1.name.toList.flatMap escapeChar ++
            '"' :: ':' :: (spacing.gap ++ ((scalarText assignment.1.kind assignment.2).toList ++
              (spacing.further others ++ rest))))) := by
        simp [Spacing.further, Spacing.member, quote_list]
      rw [text, members_member distinct spacing rounds false draft _ assignment _ (fresh _ List.mem_cons_self) opened]
      apply ih rounds
      · simpa using enough
      · exact separate.2
      · intro other member
        have different : other.1 ≠ assignment.1 := by
          intro same
          exact separate.1 (same ▸ List.mem_map_of_mem member)
        rw [Draft.get_set_other draft other.1 assignment.1 assignment.2 different]
        exact fresh other (List.mem_cons_of_mem _ member)

theorem further_length (assignments : List (Assignment fields)) :
    assignments.length < (spacing.further assignments).length := by
  induction assignments with
  | nil => simp [Spacing.further]
  | cons assignment others ih =>
      simp only [Spacing.further, List.flatMap_cons, List.cons_append, List.length_cons, List.length_append] at ih ⊢
      omega

include distinct in
theorem members_object (assignments : List (Assignment fields)) (separate : (assignments.map Sigma.fst).Nodup)
    (rest : List Char) : ∃ body, spacing.object assignments ++ rest = '\x7b' :: body ∧
      members (body.length + 1) true (Draft.empty fields) body = .ok ((Draft.empty fields).assign assignments, rest) := by
  cases assignments with
  | nil =>
      refine ⟨spacing.ending ++ '\x7d' :: rest, by simp [Spacing.object], ?_⟩
      rw [members, next_key_close true spacing.ending rest spacing.ending_blank]
      rfl
  | cons first others =>
      have opened := next_key_open spacing.lead (first.1.name.toList.flatMap escapeChar ++
        '"' :: ':' :: (spacing.gap ++ ((scalarText first.1.kind first.2).toList ++ (spacing.further others ++ rest))))
        spacing.lead_blank
      refine ⟨_, ?_, (members_member distinct spacing _ true _ _ first _ (Draft.get_empty first.1) opened).trans ?_⟩
      · simp [Spacing.object, Spacing.member, quote_list]
      · rw [List.map_cons, List.nodup_cons] at separate
        apply members_further distinct spacing _ _ _ _ separate.2
        · intro other member
          have different : other.1 ≠ first.1 := by
            intro same
            exact separate.1 (same ▸ List.mem_map_of_mem member)
          rw [Draft.get_set_other _ other.1 first.1 first.2 different, Draft.get_empty]
        · have bound := further_length spacing others
          simp only [List.length_append, List.length_cons]
          omega

end Members

section Layouts

variable {α : Type} (layout : Layout α)

theorem record_assigned (distinct : (layout.fields.map Field.name).Nodup) (spacing : Spacing)
    (assignments : List (Assignment layout.fields)) (separate : (assignments.map Sigma.fst).Nodup) (rest : List Char) :
    record layout (spacing.object assignments ++ rest) =
      ((layout.finish ((Draft.empty layout.fields).assign assignments)).mapError .value).map (·, rest) := by
  obtain ⟨body, text, read⟩ := members_object distinct spacing assignments separate rest
  rw [text, record, show skipBlanks ('\x7b' :: body) = '\x7b' :: body from rfl]
  change (members (body.length + 1) true (Draft.empty layout.fields) body).bind _ = _
  rw [read]
  dsimp only [Except.bind]
  cases layout.finish ((Draft.empty layout.fields).assign assignments) with
  | ok a => rfl
  | error fault => rfl

theorem record_written (faithful : layout.Faithful) (spacing : Spacing) (a : α) (rest : List Char) :
    record layout (spacing.object (Row.assignments layout.fields (layout.toRow a)) ++ rest) = .ok (a, rest) := by
  rw [record_assigned layout faithful.distinct spacing _ (Row.assignments_distinct _ _) rest,
    layout.finish_assigned faithful a]
  rfl

/-- A wrong value is reported as soon as it is read, whatever follows. -/
theorem record_first_fault (distinct : (layout.fields.map Field.name).Nodup) (slot : Slot layout.fields)
    (rest : List Char) (fault : Fault) (wrong : scalar slot.kind rest = .error fault) :
    record layout ('\x7b' :: ((quote slot.name).toList ++ ':' :: rest)) = .error fault := by
  have opened := next_key_open [] (slot.name.toList.flatMap escapeChar ++ '"' :: ':' :: rest) blank_nil
  have text : '\x7b' :: ((quote slot.name).toList ++ ':' :: rest) =
      '\x7b' :: ([] ++ '"' :: (slot.name.toList.flatMap escapeChar ++ '"' :: ':' :: rest)) := by
    simp [quote_list]
  have colon : skipBlanks (':' :: rest) = ':' :: rest := rfl
  rw [text, record, show ∀ body, skipBlanks ('\x7b' :: body) = '\x7b' :: body from fun _ => rfl]
  change (members _ true (Draft.empty layout.fields) _).bind _ = _
  rw [members, opened]
  simp only [bind, Except.bind, Bool.not_true, Bool.false_eq_true, if_false, quoted_body_escaped, String.ofList_toList,
    slot.find_name distinct, Draft.get_empty, Option.isSome_none, colon, expect, if_true, wrong]

theorem row_texts (fields : List Field) (row : Row fields) :
    rowTexts fields row = (Row.assignments fields row).map fun assignment =>
      (quote assignment.1.name, scalarText assignment.1.kind assignment.2) := by
  induction fields with
  | nil => rfl
  | cons field rest ih =>
      obtain ⟨value, others⟩ := row
      rw [rowTexts, ih others, Row.assignments, List.map_cons, List.map_map]
      rfl

theorem intercalate_cons (separator first : List Char) (others : List (List Char)) :
    separator.intercalate (first :: others) = first ++ others.flatMap (separator ++ ·) := by
  induction others generalizing first with
  | nil => simp
  | cons second others ih =>
      rw [List.intercalate_cons_cons, ih second, List.flatMap_cons]
      simp only [List.append_assoc]

theorem compact_list (a : α) :
    (compact layout a).toList = Spacing.none.object (Row.assignments layout.fields (layout.toRow a)) := by
  rw [compact, memberTexts, row_texts]
  cases Row.assignments layout.fields (layout.toRow a) with
  | nil => simp [Spacing.object, Spacing.none]
  | cons first others =>
      simp [String.toList_intercalate, intercalate_cons, Spacing.object, Spacing.further, Spacing.member, Spacing.none,
        List.flatMap_map]

theorem pretty_list (nonempty : layout.fields ≠ []) (a : α) :
    (pretty layout a).toList = Spacing.lines.object (Row.assignments layout.fields (layout.toRow a)) := by
  rw [pretty, memberTexts, row_texts]
  cases assigned : Row.assignments layout.fields (layout.toRow a) with
  | nil =>
      have size := Row.assignments_length layout.fields (layout.toRow a)
      rw [assigned] at size
      exact absurd (List.length_eq_zero_iff.mp size.symm) nonempty
  | cons first others =>
      simp [String.toList_intercalate, intercalate_cons, Spacing.object, Spacing.further, Spacing.member, Spacing.lines,
        List.flatMap_map]

end Layouts

def elements {α : Type} (read : List Char → Except Fault (α × List Char)) :
    Nat → Bool → List Char → Except Fault (List α × List Char)
  | 0, _, _ => .error .truncated
  | rounds + 1, first, input => do
    match ← nextElement first input with
    | none => (expect ']' (skipBlanks input)).map ([], ·)
    | some input =>
      let (a, rest) ← read input
      let (others, rest) ← elements read rounds false rest
      return (a :: others, rest)

def array {α : Type} (read : List Char → Except Fault (α × List Char)) (input : List Char) :
    Except Fault (List α × List Char) :=
  match skipBlanks input with
  | '[' :: rest => elements read (rest.length + 1) true rest
  | other => .error (misplaced other)

section Arrays

variable {α : Type} (layout : Layout α) (faithful : layout.Faithful)

def furtherTexts (items : List α) : List Char := items.flatMap fun a => ',' :: (compact layout a).toList

theorem further_texts_length (items : List α) : items.length ≤ (furtherTexts layout items).length := by
  induction items with
  | nil => exact Nat.le_refl 0
  | cons a others ih =>
      simp only [furtherTexts, List.flatMap_cons, List.cons_append, List.length_cons, List.length_append] at ih ⊢
      omega

theorem next_element_compact (a : α) (rest : List Char) :
    nextElement true ((compact layout a).toList ++ rest) = .ok (some ((compact layout a).toList ++ rest)) ∧
      nextElement false (',' :: ((compact layout a).toList ++ rest)) = .ok (some ((compact layout a).toList ++ rest)) := by
  rw [compact, String.toList_append, String.toList_append]
  exact ⟨rfl, rfl⟩

include faithful in
theorem elements_compact (rounds : Nat) (first : Bool) (input : List Char) (a : α) (rest : List Char)
    (next : nextElement first input = .ok (some ((compact layout a).toList ++ rest))) :
    elements (record layout) (rounds + 1) first input =
      (elements (record layout) rounds false rest).map fun (others, behind) => (a :: others, behind) := by
  have read := record_written layout faithful Spacing.none a rest
  rw [← compact_list] at read
  rw [elements, next]
  simp only [bind, Except.bind, read]
  cases elements (record layout) rounds false rest with
  | error fault => rfl
  | ok result => rfl

include faithful in
theorem elements_further (items : List α) (rounds : Nat) (enough : items.length < rounds) (rest : List Char) :
    elements (record layout) rounds false (furtherTexts layout items ++ ']' :: rest) = .ok (items, rest) := by
  induction items generalizing rounds with
  | nil =>
      obtain ⟨rounds, rfl⟩ := Nat.exists_eq_succ_of_ne_zero (Nat.ne_of_gt enough)
      rfl
  | cons a others ih =>
      obtain ⟨rounds, rfl⟩ := Nat.exists_eq_succ_of_ne_zero (Nat.ne_of_gt (Nat.lt_of_le_of_lt (Nat.zero_le _) enough))
      have text : furtherTexts layout (a :: others) ++ ']' :: rest =
          ',' :: ((compact layout a).toList ++ (furtherTexts layout others ++ ']' :: rest)) := by
        simp [furtherTexts]
      rw [text, elements_compact layout faithful rounds false _ a _ (next_element_compact layout a _).2,
        ih rounds (Nat.lt_of_succ_lt_succ enough)]
      rfl

include faithful in
theorem array_written (items : List α) (rest : List Char) :
    array (record layout) ((compactList layout items).toList ++ rest) = .ok (items, rest) := by
  cases items with
  | nil =>
      have text : (compactList layout []).toList = ['[', ']'] := by simp [compactList]
      rw [text]
      rfl
  | cons a others =>
      have text : (compactList layout (a :: others)).toList ++ rest =
          '[' :: ((compact layout a).toList ++ (furtherTexts layout others ++ ']' :: rest)) := by
        simp [compactList, String.toList_intercalate, intercalate_cons, furtherTexts, List.flatMap_map]
      have enough : others.length < ((compact layout a).toList ++ (furtherTexts layout others ++ ']' :: rest)).length := by
        have bound := further_texts_length layout others
        simp only [List.length_append, List.length_cons]
        omega
      rw [text]
      change elements (record layout) (_ + 1) true _ = _
      rw [elements_compact layout faithful _ true _ a _ (next_element_compact layout a _).1,
        elements_further layout faithful others _ enough]
      rfl

end Arrays

theorem document_read {α : Type} (read : List Char → Except Fault (α × List Char)) (input : String) (a : α)
    (blanks : List Char) (blank : ∀ c ∈ blanks, isBlank c = true) (value : read input.toList = .ok (a, blanks)) :
    document read input = .ok a := by
  have nothing : skipBlanks blanks = [] := List.dropWhile_eq_nil_iff.mpr blank
  simp only [document, value, bind, Except.bind, nothing, List.isEmpty_nil, if_true]
  rfl

theorem document_compact {α : Type} (layout : Layout α) (faithful : layout.Faithful) (a : α) :
    document (record layout) (compact layout a) = .ok a := by
  have read := record_written layout faithful Spacing.none a []
  rw [List.append_nil, ← compact_list layout a] at read
  exact document_read (record layout) (compact layout a) a [] (by simp) read

theorem document_error {α : Type} (read : List Char → Except Fault (α × List Char)) (input : String) (fault : Fault)
    (value : read input.toList = .error fault) : document read input = .error fault := by
  rw [document, value]
  rfl

end Showcase.Json
