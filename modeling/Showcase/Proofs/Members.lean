import Showcase.Proofs.Grammar
import Showcase.Proofs.Rewording

set_option autoImplicit false

namespace Showcase.Json

open Record

section Contents

/-- A quoted text behind its first quote, and its content. The halves of a pair stand together. -/
inductive Spelled : List Char → List Char → Prop where
  | close : Spelled ['"'] []
  | plain (c : Char) (rest content : List Char) (unquoted : c ≠ '"') (unescaped : c ≠ '\\') (printed : 0x20 ≤ c.toNat)
      (more : Spelled rest content) : Spelled (c :: rest) (c :: content)
  | short (c plain : Char) (rest content : List Char) (stands : escapeOf? c = some plain)
      (more : Spelled rest content) : Spelled ('\\' :: c :: rest) (plain :: content)
  | unit (digits : List Char) (unit : Nat) (rest content : List Char) (read : CodeUnit digits unit)
      (single : isLead unit = false ∧ isTrail unit = false) (more : Spelled rest content) :
      Spelled ('\\' :: 'u' :: (digits ++ rest)) (Char.ofNat unit :: content)
  | pair (high low : List Char) (lead trail : Nat) (rest content : List Char) (first : CodeUnit high lead)
      (second : CodeUnit low trail) (halves : isLead lead = true ∧ isTrail trail = true)
      (more : Spelled rest content) :
      Spelled ('\\' :: 'u' :: (high ++ '\\' :: 'u' :: (low ++ rest))) (joinUnits lead trail :: content)

theorem lead_no_trail (unit : Nat) (lead : isLead unit = true) : isTrail unit = false := by
  simp only [isLead, isTrail, Bool.and_eq_true, decide_eq_true_eq, Bool.and_eq_false_iff, decide_eq_false_iff_not] at *
  omega

theorem code_point_single {digits : List Char} {unit : Nat} (read : CodeUnit digits unit)
    (single : isLead unit = false ∧ isTrail unit = false) (rest : List Char) :
    codePoint (digits ++ rest) = .ok (Char.ofNat unit, rest) := by
  simp only [codePoint, code_unit_read read rest, bind, Except.bind, single.1, single.2, Bool.false_eq_true, if_false]
  rfl

theorem code_point_trail {digits : List Char} {unit : Nat} (read : CodeUnit digits unit) (trail : isTrail unit = true)
    (rest : List Char) : codePoint (digits ++ rest) = .error .malformed := by
  simp only [codePoint, code_unit_read read rest, bind, Except.bind, trail, if_true]
  rfl

def secondHalf (lead : Nat) (text : List Char) : Except Fault (Char × List Char) := do
  let rest ← expect '\\' text
  let rest ← expect 'u' rest
  let (trail, rest) ← codeUnit rest
  if isTrail trail then return (joinUnits lead trail, rest) else throw .malformed

theorem code_point_lead {digits : List Char} {unit : Nat} (read : CodeUnit digits unit) (lead : isLead unit = true)
    (rest : List Char) : codePoint (digits ++ rest) = secondHalf unit rest := by
  simp only [codePoint, code_unit_read read rest, bind, Except.bind, lead_no_trail unit lead, lead, Bool.false_eq_true,
    if_false, if_true]
  rfl

theorem second_half_unit (lead : Nat) {low : List Char} {trail : Nat} (read : CodeUnit low trail) (rest : List Char) :
    secondHalf lead ('\\' :: 'u' :: (low ++ rest)) =
      if isTrail trail then .ok (joinUnits lead trail, rest) else .error .malformed := by
  simp only [secondHalf, expect, if_true, bind, Except.bind, code_unit_read read rest]
  rfl

theorem spelled_read (body content : List Char) (spelled : Spelled body content) (rest : List Char) :
    quotedBody (body ++ rest) = .ok (content, rest) := by
  induction spelled with
  | close => rw [List.singleton_append, quotedBody, if_pos rfl]
  | plain c tail content unquoted unescaped printed _ ih =>
      rw [List.cons_append, quotedBody, if_neg unquoted, if_neg unescaped, if_neg (Nat.not_lt.mpr printed), ih]
      rfl
  | short c plain tail content stands _ ih =>
      have other : c ≠ 'u' := by
        rintro rfl
        cases stands
      rw [List.cons_append, List.cons_append, quoted_body_escape plain (c :: (tail ++ rest)) (tail ++ rest), ih]
      · rfl
      · rw [escape, if_neg other, stands]
  | unit digits unit tail content read single _ ih =>
      rw [List.cons_append, List.cons_append, List.append_assoc,
        quoted_body_escape (Char.ofNat unit) ('u' :: (digits ++ (tail ++ rest))) (tail ++ rest), ih]
      · rfl
      · rw [escape, if_pos rfl, code_point_single read single]
  | pair high low lead trail tail content first second halves _ ih =>
      rw [List.cons_append, List.cons_append, List.append_assoc, List.cons_append, List.cons_append, List.append_assoc,
        quoted_body_escape (joinUnits lead trail) ('u' :: (high ++ '\\' :: 'u' :: (low ++ (tail ++ rest)))) (tail ++ rest),
        ih]
      · rfl
      · rw [escape, if_pos rfl, code_point_lead first halves.1, second_half_unit lead second, if_pos halves.2]

end Contents

/-- A reader takes the text as a whole or refuses it, whatever follows. -/
def Decided {α : Type} (read : List Char → Except Fault (α × List Char)) (text : List Char) : Prop :=
  (∃ a, ∀ rest, read (text ++ rest) = .ok (a, rest)) ∨ ∀ rest, ∃ fault, read (text ++ rest) = .error fault

section Scalars

theorem decided_behind (c : Char) (text tail : List Char)
    (step : ∀ rest, quotedBody (text ++ rest) =
      (quotedBody (tail ++ rest)).map fun (content, behind) => (c :: content, behind))
    (decided : Decided quotedBody tail) : Decided quotedBody text := by
  rcases decided with ⟨content, read⟩ | refused
  · left
    refine ⟨c :: content, fun rest => ?_⟩
    rw [step, read]
    rfl
  · right
    intro rest
    obtain ⟨fault, failed⟩ := refused rest
    refine ⟨fault, ?_⟩
    rw [step, failed]
    rfl

theorem quoted_body_refused (rest : List Char) (fault : Fault) (failed : escape rest = .error fault) :
    quotedBody ('\\' :: rest) = .error fault := by
  rw [quotedBody, if_neg (by decide), if_pos rfl]
  split
  · rename_i other found
    rw [failed] at found
    cases found
    rfl
  · rename_i found
    rw [failed] at found
    cases found

theorem second_half_decided (lead : Nat) (tail : List Char) (quoted : Quoted tail) :
    (∃ c behind, Quoted behind ∧ behind.length ≤ tail.length ∧
      ∀ rest, secondHalf lead (tail ++ rest) = .ok (c, behind ++ rest)) ∨
    ∀ rest, ∃ fault, secondHalf lead (tail ++ rest) = .error fault := by
  cases quoted with
  | close => exact .inr fun rest => ⟨.malformed, rfl⟩
  | plain c tail _ unescaped _ _ =>
      refine .inr fun rest => ⟨.malformed, ?_⟩
      simp only [secondHalf, List.cons_append, expect, if_neg unescaped, bind, Except.bind]
  | short c tail listed _ =>
      obtain ⟨other, _⟩ := short_escape c listed
      refine .inr fun rest => ⟨.malformed, ?_⟩
      simp only [secondHalf, List.cons_append, expect, if_true, if_neg other, bind, Except.bind]
  | unit digits trail tail read more =>
      have next : ∀ rest, secondHalf lead ('\\' :: 'u' :: (digits ++ tail) ++ rest) =
          if isTrail trail then .ok (joinUnits lead trail, tail ++ rest) else .error .malformed := by
        intro rest
        rw [List.cons_append, List.cons_append, List.append_assoc, second_half_unit lead read]
      cases half : isTrail trail with
      | true =>
          refine .inl ⟨joinUnits lead trail, tail, more, ?_, fun rest => ?_⟩
          · simp only [List.length_cons, List.length_append]
            omega
          · rw [next, half, if_pos rfl]
      | false =>
          refine .inr fun rest => ⟨.malformed, ?_⟩
          rw [next, half, if_neg Bool.false_ne_true]

theorem code_point_decided (digits : List Char) (unit : Nat) (tail : List Char) (read : CodeUnit digits unit)
    (quoted : Quoted tail) :
    (∃ c behind, Quoted behind ∧ behind.length ≤ tail.length ∧
      ∀ rest, codePoint (digits ++ (tail ++ rest)) = .ok (c, behind ++ rest)) ∨
    ∀ rest, ∃ fault, codePoint (digits ++ (tail ++ rest)) = .error fault := by
  cases lead : isLead unit with
  | true =>
      simp only [code_point_lead read lead]
      exact second_half_decided unit tail quoted
  | false =>
      cases trail : isTrail unit with
      | true => exact .inr fun rest => ⟨_, code_point_trail read trail _⟩
      | false => exact .inl ⟨_, tail, quoted, Nat.le_refl _, fun rest => code_point_single read ⟨lead, trail⟩ _⟩

theorem quoted_decided (body : List Char) (quoted : Quoted body) : Decided quotedBody body := by
  -- By induction on the length, because a pair takes two escapes at once.
  induction size : body.length using Nat.strongRecOn generalizing body with
  | ind n ih =>
      cases quoted with
      | close =>
          refine .inl ⟨[], fun rest => ?_⟩
          rw [List.singleton_append, quotedBody, if_pos rfl]
      | plain c tail unquoted unescaped printed more =>
          apply decided_behind c (c :: tail) tail
          · intro rest
            rw [List.cons_append, quotedBody, if_neg unquoted, if_neg unescaped, if_neg (Nat.not_lt.mpr printed)]
          · exact ih tail.length (by simp only [← size, List.length_cons]; omega) tail more rfl
      | short c tail listed more =>
          obtain ⟨other, plain, known⟩ := short_escape c listed
          apply decided_behind plain ('\\' :: c :: tail) tail
          · intro rest
            apply quoted_body_escape plain (c :: (tail ++ rest))
            rw [escape, if_neg other, known]
          · exact ih tail.length (by simp only [← size, List.length_cons]; omega) tail more rfl
      | unit digits unit tail read more =>
          have text : ∀ rest, '\\' :: 'u' :: (digits ++ tail) ++ rest = '\\' :: 'u' :: (digits ++ (tail ++ rest)) := by
            simp
          rcases code_point_decided digits unit tail read more with ⟨c, behind, held, shorter, point⟩ | refused
          · apply decided_behind c ('\\' :: 'u' :: (digits ++ tail)) behind
            · intro rest
              rw [text, quoted_body_escape c _ (behind ++ rest)]
              rw [escape, if_pos rfl, point]
            · refine ih behind.length ?_ behind held rfl
              simp only [List.length_cons, List.length_append] at size
              omega
          · refine .inr fun rest => ?_
            obtain ⟨fault, failed⟩ := refused rest
            refine ⟨fault, ?_⟩
            rw [text]
            apply quoted_body_refused
            rw [escape, if_pos rfl, failed]

theorem skip_blanks_front (front rest : List Char) (blank : Blank front) :
    skipBlanks (front ++ rest) = skipBlanks rest := List.dropWhile_append_of_pos blank

theorem value_cases (value : List Char) (held : Wellformed .value value) :
    (∃ body, value = '"' :: body ∧ Quoted body) ∨ value = ['t', 'r', 'u', 'e'] ∨ value = ['f', 'a', 'l', 's', 'e'] ∨
      ∃ c tail, value = c :: tail ∧ isBlank c = false ∧ c ≠ '"' ∧ c ≠ 't' ∧ c ≠ 'f' := by
  cases held with
  | scalar _ scalar =>
      cases scalar with
      | null => exact .inr (.inr (.inr ⟨'n', _, rfl, by decide⟩))
      | yes => exact .inr (.inl rfl)
      | no => exact .inr (.inr (.inl rfl))
      | quoted body quoted => exact .inl ⟨body, rfl, quoted⟩
      | number _ number =>
          obtain ⟨c, tail, same, digit⟩ := number_head value number
          obtain ⟨plain, unlisted⟩ := digit_facts c digit
          simp only [List.mem_cons, not_or] at unlisted
          exact .inr (.inr (.inr ⟨c, tail, same, plain, unlisted.2.2.2.1, unlisted.2.1, unlisted.2.2.1⟩))
      | negative text _ => exact .inr (.inr (.inr ⟨'-', text, rfl, by decide⟩))
  | empty frame blanks _ => exact .inr (.inr (.inr ⟨frame.opener, _, rfl, by cases frame <;> decide⟩))
  | filled frame items _ => exact .inr (.inr (.inr ⟨frame.opener, _, rfl, by cases frame <;> decide⟩))

theorem text_refused (c : Char) (tail : List Char) (plain : isBlank c = false) (unquoted : c ≠ '"') :
    ∃ fault, text (c :: tail) = .error fault := by
  have start : skipBlanks (c :: tail) = c :: tail := skip_blanks_mark [] blank_nil c plain tail
  unfold text
  rw [start]
  split
  · rename_i eq
    exact absurd (List.cons.inj eq).1 unquoted
  · exact ⟨_, rfl⟩

theorem text_decided (value : List Char) (held : Wellformed .value value) : Decided text value := by
  rcases value_cases value held with ⟨body, rfl, quoted⟩ | rfl | rfl | ⟨c, tail, rfl, plain, unquoted, _⟩
  · have opened : ∀ rest, text ('"' :: body ++ rest) =
        (quotedBody (body ++ rest)).map fun (content, rest) => (String.ofList content, rest) :=
      fun rest => text_open _ (body ++ rest) rfl
    rcases quoted_decided body quoted with ⟨content, read⟩ | refused
    · refine .inl ⟨String.ofList content, fun rest => ?_⟩
      rw [opened, read]
      rfl
    · refine .inr fun rest => ?_
      obtain ⟨fault, failed⟩ := refused rest
      refine ⟨fault, ?_⟩
      rw [opened, failed]
      rfl
  · exact .inr fun rest => text_refused 't' _ rfl (by decide)
  · exact .inr fun rest => text_refused 'f' _ rfl (by decide)
  · exact .inr fun rest => text_refused c _ plain unquoted

theorem flag_refused (c : Char) (tail : List Char) (plain : isBlank c = false) (yes : c ≠ 't') (no : c ≠ 'f') :
    ∃ fault, flag (c :: tail) = .error fault := by
  have start : skipBlanks (c :: tail) = c :: tail := skip_blanks_mark [] blank_nil c plain tail
  unfold flag
  rw [start]
  split
  · rename_i eq
    exact absurd (List.cons.inj eq).1 yes
  · rename_i eq
    exact absurd (List.cons.inj eq).1 no
  · exact ⟨_, rfl⟩

theorem flag_decided (value : List Char) (held : Wellformed .value value) : Decided flag value := by
  rcases value_cases value held with ⟨body, rfl, _⟩ | rfl | rfl | ⟨c, tail, rfl, plain, _, yes, no⟩
  · exact .inr fun rest => flag_refused '"' _ rfl (by decide) (by decide)
  · exact .inl ⟨true, fun rest => rfl⟩
  · exact .inl ⟨false, fun rest => rfl⟩
  · exact .inr fun rest => flag_refused c _ plain yes no

theorem sample_id_decided (value : List Char) (held : Wellformed .value value) : Decided sampleId value := by
  rcases text_decided value held with ⟨raw, read⟩ | refused
  · cases known : SampleId.ofText? raw with
    | some id =>
        refine .inl ⟨id, fun rest => ?_⟩
        simp only [sampleId, read, bind, Except.bind, known]
        rfl
    | none =>
        refine .inr fun rest => ⟨.value (.invalidId raw), ?_⟩
        simp only [sampleId, read, bind, Except.bind, known]
        rfl
  · refine .inr fun rest => ?_
    obtain ⟨fault, failed⟩ := refused rest
    exact ⟨fault, by simp only [sampleId, failed, bind, Except.bind]⟩

def Plain (kind : Kind) : Prop := kind ≠ .code ∧ kind ≠ .mode

instance (kind : Kind) : Decidable (Plain kind) := inferInstanceAs (Decidable (kind ≠ .code ∧ kind ≠ .mode))

theorem scalar_decided (kind : Kind) (plain : Plain kind) (value : List Char) (held : Wellformed .value value) :
    Decided (scalar kind) value := by
  cases kind with
  | id => exact sample_id_decided value held
  | text => exact text_decided value held
  | flag => exact flag_decided value held
  | code => exact absurd rfl plain.1
  | mode => exact absurd rfl plain.2

theorem scalar_front (kind : Kind) (plain : Plain kind) (front rest : List Char) (blank : Blank front) :
    scalar kind (front ++ rest) = scalar kind rest := by
  have same := skip_blanks_front front rest blank
  have texts : text (front ++ rest) = text rest := by rw [text, text, same]
  cases kind with
  | id =>
      change sampleId (front ++ rest) = sampleId rest
      rw [sampleId, sampleId, texts]
  | text => exact texts
  | flag =>
      change flag (front ++ rest) = flag rest
      rw [flag, flag, same]
  | code => exact absurd rfl plain.1
  | mode => exact absurd rfl plain.2

def valueOf? (kind : Kind) (value : List Char) : Option kind.Value := (scalar kind value).toOption.map Prod.fst

theorem scalar_read (kind : Kind) (plain : Plain kind) (front value rest : List Char) (blank : Blank front)
    (held : Wellformed .value value) :
    (scalar kind (front ++ (value ++ rest))).toOption = (valueOf? kind value).map (·, rest) := by
  have alone := value.append_nil
  rw [scalar_front kind plain front _ blank, valueOf?]
  rcases scalar_decided kind plain value held with ⟨a, read⟩ | refused
  · have whole := read []
    rw [alone] at whole
    rw [read rest, whole]
    rfl
  · obtain ⟨fault, failed⟩ := refused rest
    obtain ⟨other, nothing⟩ := refused []
    rw [alone] at nothing
    rw [failed, nothing]
    rfl

end Scalars

structure Member where
  lead : List Char
  key : String
  name : List Char
  gap : List Char
  front : List Char
  value : List Char
  back : List Char
  lead_blank : Blank lead
  spelled : Spelled name key.toList
  gap_blank : Blank gap
  front_blank : Blank front
  wellformed : Wellformed .value value
  back_blank : Blank back

/-- An object with the blanks around it; `inner` are the blanks of an object without members. -/
structure Object where
  lead : List Char
  inner : List Char
  members : List Member
  trail : List Char
  lead_blank : Blank lead
  inner_blank : Blank inner
  trail_blank : Blank trail

namespace Member

def list (member : Member) (rest : List Char) : List Char :=
  member.lead ++ '"' :: (member.name ++ (member.gap ++ ':' :: (member.front ++ (member.value ++ (member.back ++ rest)))))

def further : List Member → List Char → List Char
  | [], rest => '\x7d' :: rest
  | member :: others, rest => ',' :: member.list (further others rest)

def entry (member : Member) : String × List Char := (member.key, member.value)

end Member

namespace Object

def body (object : Object) (rest : List Char) : List Char :=
  match object.members with
  | [] => object.inner ++ '\x7d' :: rest
  | member :: others => member.list (Member.further others rest)

def text (object : Object) : String := String.ofList (object.lead ++ '\x7b' :: object.body object.trail)

def entries (object : Object) : List (String × List Char) := object.members.map Member.entry

end Object

section Reading

theorem further_stops (back : List Char) (blank : Blank back) (members : List Member) (rest : List Char) :
    Stops (back ++ Member.further members rest) := by
  cases members with
  | nil => exact stops_mark back blank '\x7d' (by decide) rest
  | cons member others => exact stops_mark back blank ',' (by decide) _

variable {fields : List Field}

theorem member_read (rounds : Nat) (first : Bool) (draft : Draft fields) (input : List Char) (member : Member)
    (tail : List Char)
    (opened : nextKey first input =
      .ok (true, member.name ++ (member.gap ++ ':' :: (member.front ++ (member.value ++ tail)))))
    (stops : Stops tail) :
    members (rounds + 1) first draft input =
      match Slot.find? member.key fields with
      | none => members rounds false draft tail
      | some slot =>
        if (draft.get? slot).isSome then fail (.duplicateField slot.name)
        else (scalar slot.kind (member.front ++ (member.value ++ tail))).bind fun (value, rest) =>
          members rounds false (draft.set slot value) rest := by
  have named := spelled_read member.name member.key.toList member.spelled
    (member.gap ++ ':' :: (member.front ++ (member.value ++ tail)))
  have colon := skip_blanks_mark member.gap member.gap_blank ':' rfl (member.front ++ (member.value ++ tail))
  have skipped := skip_value member.front member.value tail member.front_blank member.wellformed stops
  rw [members, opened]
  simp only [bind, Except.bind, Bool.not_true, Bool.false_eq_true, if_false, named, String.ofList_toList]
  cases Slot.find? member.key fields with
  | none => simp only [colon, expect, if_true, skipped]
  | some slot =>
      by_cases filled : (draft.get? slot).isSome = true
      · simp only [filled, if_true]
        rfl
      · simp only [filled, Bool.false_eq_true, if_false, colon, expect, if_true]

theorem slot_plain (plain : ∀ field ∈ fields, Plain field.kind) (slot : Slot fields) : Plain slot.kind := by
  induction slot with
  | here => exact plain _ List.mem_cons_self
  | there slot ih => exact ih fun field member => plain field (List.mem_cons_of_mem _ member)

def Fresh (draft : Draft fields) (entries : List (String × List Char)) : Prop :=
  ∀ slot : Slot fields, slot.name ∈ entries.map Prod.fst → draft.get? slot = none

theorem fresh_rest (draft : Draft fields) (key : String) (value : List Char) (rest : List (String × List Char))
    (fresh : Fresh draft ((key, value) :: rest)) : Fresh draft rest :=
  fun slot member => fresh slot (List.mem_cons_of_mem _ member)

theorem fresh_set (draft : Draft fields) (slot : Slot fields) (value : slot.kind.Value) (written : List Char)
    (rest : List (String × List Char)) (fresh : Fresh draft ((slot.name, written) :: rest))
    (once : Unrepeated (fields.map Field.name) ((slot.name, written) :: rest)) : Fresh (draft.set slot value) rest := by
  intro other member
  have different : other ≠ slot := by
    rintro rfl
    rw [Unrepeated, known_cons _ _ _ _ other.name_mem, List.map_cons, List.nodup_cons] at once
    obtain ⟨entry, inside, same⟩ := List.mem_map.mp member
    refine once.1 (List.mem_map.mpr ⟨entry, List.mem_filter.mpr ⟨inside, ?_⟩, same⟩)
    rw [same]
    exact decide_eq_true other.name_mem
  rw [Draft.get_set_other draft other slot value different]
  exact fresh_rest draft slot.name written rest fresh other member

theorem unrepeated_rest (names : List String) (entry : String × List Char) (rest : List (String × List Char))
    (once : Unrepeated names (entry :: rest)) : Unrepeated names rest :=
  (((List.sublist_cons_self entry rest).filter _).map Prod.fst).nodup once

theorem member_decoded (plain : ∀ field ∈ fields, Plain field.kind) (rounds : Nat) (first : Bool) (draft : Draft fields)
    (input : List Char) (member : Member) (tail rest : List Char) (entries : List (String × List Char))
    (opened : nextKey first input =
      .ok (true, member.name ++ (member.gap ++ ':' :: (member.front ++ (member.value ++ tail)))))
    (stops : Stops tail) (fresh : Fresh draft (member.entry :: entries))
    (once : Unrepeated (fields.map Field.name) (member.entry :: entries))
    (others : ∀ draft : Draft fields, Fresh draft entries → (members rounds false draft tail).toOption =
      (assignments? valueOf? fields entries).map fun assignments => (draft.assign assignments, rest)) :
    (members (rounds + 1) first draft input).toOption =
      (assignments? valueOf? fields (member.entry :: entries)).map fun assignments =>
        (draft.assign assignments, rest) := by
  rw [member_read rounds first draft input member tail opened stops]
  cases found : Slot.find? member.key fields with
  | none =>
      rw [Member.entry, assignments_unknown valueOf? fields member.key member.value entries found]
      exact others draft (fresh_rest draft _ _ entries fresh)
  | some slot =>
      have name := Slot.find_some found
      have empty : draft.get? slot = none := fresh slot (by simp [Member.entry, name])
      rw [Member.entry, assignments_field valueOf? fields member.key member.value entries slot found]
      dsimp only
      rw [empty, Option.isSome_none, if_neg Bool.false_ne_true, to_option_bind,
        scalar_read slot.kind (slot_plain plain slot) member.front member.value tail member.front_blank member.wellformed]
      cases valueOf? slot.kind member.value with
      | none => rfl
      | some value =>
          rw [Member.entry, ← name] at fresh once
          have behind := others (draft.set slot value) (fresh_set draft slot value member.value entries fresh once)
          simp only [Option.map_some, Option.bind_some, behind, Option.map_map]
          rfl

theorem further_decoded (plain : ∀ field ∈ fields, Plain field.kind) (held : List Member) (rounds : Nat)
    (enough : held.length < rounds) (back rest : List Char) (blank : Blank back) (draft : Draft fields)
    (fresh : Fresh draft (held.map Member.entry))
    (once : Unrepeated (fields.map Field.name) (held.map Member.entry)) :
    (members rounds false draft (back ++ Member.further held rest)).toOption =
      (assignments? valueOf? fields (held.map Member.entry)).map fun assignments =>
        (draft.assign assignments, rest) := by
  induction held generalizing rounds back draft with
  | nil =>
      obtain ⟨rounds, rfl⟩ := Nat.exists_eq_succ_of_ne_zero (Nat.ne_of_gt enough)
      rw [Member.further, members, next_key_close false back rest blank]
      rfl
  | cons member others ih =>
      obtain ⟨rounds, rfl⟩ := Nat.exists_eq_succ_of_ne_zero (Nat.ne_of_gt (Nat.lt_of_le_of_lt (Nat.zero_le _) enough))
      apply member_decoded plain rounds false draft _ member (member.back ++ Member.further others rest) rest
      · exact next_key_comma back member.lead _ blank member.lead_blank
      · exact further_stops member.back member.back_blank others rest
      · exact fresh
      · exact once
      · intro draft fresh
        exact ih rounds (Nat.lt_of_succ_lt_succ enough) member.back member.back_blank draft fresh
          (unrepeated_rest _ _ _ once)

theorem further_members_length (held : List Member) (rest : List Char) : held.length < (Member.further held rest).length := by
  induction held with
  | nil => simp [Member.further]
  | cons member others ih =>
      simp only [Member.further, Member.list, List.length_cons, List.length_append]
      omega

theorem fresh_empty (entries : List (String × List Char)) : Fresh (Draft.empty fields) entries :=
  fun slot _ => Draft.get_empty slot

theorem body_decoded (plain : ∀ field ∈ fields, Plain field.kind) (object : Object) (rest : List Char)
    (once : Unrepeated (fields.map Field.name) object.entries) :
    (members ((object.body rest).length + 1) true (Draft.empty fields) (object.body rest)).toOption =
      (assignments? valueOf? fields object.entries).map fun assignments =>
        ((Draft.empty fields).assign assignments, rest) := by
  rw [Object.entries] at once ⊢
  rw [Object.body]
  cases held : object.members with
  | nil =>
      dsimp only
      rw [members, next_key_close true object.inner rest object.inner_blank]
      rfl
  | cons member others =>
      rw [held] at once
      apply member_decoded plain _ true _ _ member (member.back ++ Member.further others rest) rest
      · exact next_key_open member.lead _ member.lead_blank
      · exact further_stops member.back member.back_blank others rest
      · exact fresh_empty _
      · exact once
      · intro draft fresh
        apply further_decoded plain others _ _ member.back rest member.back_blank draft fresh
        · exact unrepeated_rest _ _ _ once
        · have bound := further_members_length others rest
          simp only [Member.list, List.length_append, List.length_cons]
          omega

end Reading

section Records

variable {α : Type} (layout : Layout α) (plain : ∀ field ∈ layout.fields, Plain field.kind)
include plain

theorem object_decoded (object : Object) (rest : List Char) (once : Unrepeated layout.names object.entries) :
    (record layout (object.lead ++ '\x7b' :: object.body rest)).toOption =
      (layout.decoded? valueOf? object.entries).map (·, rest) := by
  have body := body_decoded plain object rest once
  have start := skip_blanks_mark object.lead object.lead_blank '\x7b' rfl (object.body rest)
  rw [record, start, Layout.decoded?]
  change ((members _ true (Draft.empty layout.fields) (object.body rest)).bind _).toOption = _
  rw [to_option_bind, body]
  cases assignments? valueOf? layout.fields object.entries with
  | none => rfl
  | some assignments =>
      simp only [Option.map_some, Option.bind_some]
      cases layout.finish ((Draft.empty layout.fields).assign assignments) <;> rfl

theorem document_decoded (object : Object) (once : Unrepeated layout.names object.entries) :
    (document (record layout) object.text).toOption = layout.decoded? valueOf? object.entries := by
  have read := object_decoded layout plain object object.trail once
  have text : object.text.toList = object.lead ++ '\x7b' :: object.body object.trail := String.toList_ofList
  rw [← text] at read
  cases value : record layout object.text.toList with
  | error fault =>
      rw [document_error _ _ fault value]
      rw [value] at read
      exact (Option.map_eq_none_iff.mp read.symm).symm
  | ok result =>
      rw [value] at read
      obtain ⟨a, decoded, same⟩ := Option.map_eq_some_iff.mp read.symm
      rw [← same] at value
      rw [document_read _ _ a object.trail object.trail_blank value, decoded]
      rfl

theorem document_rewritten (before after : Object) (once : Unrepeated layout.names before.entries)
    (rewritten : Rewritten layout.names before.entries after.entries) :
    (document (record layout) before.text).toOption = (document (record layout) after.text).toOption := by
  rw [document_decoded layout plain before once, document_decoded layout plain after (rewritten.unrepeated once),
    layout.decoded_rewritten valueOf? before.entries after.entries rewritten once]

end Records

end Showcase.Json
