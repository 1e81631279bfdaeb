import Showcase.Proofs.Quoted
import Showcase.Proofs.Record
import Showcase.Proofs.Text
import Showcase.Toml.Decode
import Showcase.Toml.Document

set_option autoImplicit false

namespace Showcase.Toml

open Record

def isBareName (name : String) : Bool := !name.isEmpty && name.toList.all isBareChar

theorem bare_avoids (c mark : Char) (bare : isBareChar c = true) (outside : isBareChar mark = false) : c ≠ mark := by
  intro same
  rw [same, outside] at bare
  cases bare

theorem bare_not_blank (c : Char) (bare : isBareChar c = true) : isBlank c = false := by
  simp [isBlank, bare_avoids c ' ' bare rfl, bare_avoids c '\t' bare rfl]

theorem bare_line_start (c : Char) (bare : isBareChar c = true) : isLineStart c = true := by
  simp [isLineStart, bare_avoids c '#' bare rfl, bare_avoids c '\n' bare rfl, bare_avoids c '\r' bare rfl]

section Keys

variable {name : String} (bare : isBareName name = true)
include bare

theorem bare_members : ∀ c ∈ name.toList, isBareChar c = true := by
  rw [isBareName, Bool.and_eq_true, List.all_eq_true] at bare
  exact bare.2

theorem bare_head : ∃ c rest, name.toList = c :: rest ∧ isBareChar c = true := by
  cases text : name.toList with
  | nil =>
      rw [String.toList_eq_nil_iff.mp text] at bare
      cases bare
  | cons c rest => exact ⟨c, rest, rfl, bare_members bare c (by rw [text]; exact List.mem_cons_self)⟩

theorem key_part_bare (rest : List Char) (stop : ∀ c, rest.head? = some c → isBareChar c = false) :
    keyPart? (name.toList ++ rest) = some (name, rest) := by
  have stopped : rest.takeWhile isBareChar = [] ∧ rest.dropWhile isBareChar = rest := by
    cases rest with
    | nil => exact ⟨rfl, rfl⟩
    | cons c rest => simp [stop c rfl]
  obtain ⟨c, tail, text, _⟩ := bare_head bare
  have cut : (name.toList ++ rest).takeWhile isBareChar = name.toList := by
    rw [List.takeWhile_append_of_pos (bare_members bare), stopped.1, List.append_nil]
  have left : (name.toList ++ rest).dropWhile isBareChar = rest := by
    rw [List.dropWhile_append_of_pos (bare_members bare), stopped.2]
  rw [keyPart?, cut, left, text]
  dsimp only
  rw [← text, String.ofList_toList]

theorem key_bare (blanks : List Char) (blank : ∀ c ∈ blanks, isBlank c = true) (mark : Char)
    (stop : isBareChar mark = false) (plain : isBlank mark = false) (undotted : mark ≠ '.') (rest : List Char) :
    key? (name.toList ++ (blanks ++ mark :: rest)) = some (([], name), mark :: rest) := by
  have stopped : ∀ c, (blanks ++ mark :: rest).head? = some c → isBareChar c = false := by
    intro c first
    cases blanks with
    | nil =>
        cases first
        exact stop
    | cons b others =>
        cases first
        cases held : isBareChar c with
        | false => rfl
        | true =>
            have spaced := blank c List.mem_cons_self
            rw [bare_not_blank c held] at spaced
            cases spaced
  have unblanked : skipBlanks (name.toList ++ (blanks ++ mark :: rest)) = name.toList ++ (blanks ++ mark :: rest) := by
    obtain ⟨c, tail, text, first⟩ := bare_head bare
    rw [text, List.cons_append, skipBlanks, List.dropWhile_cons, bare_not_blank c first]
    rfl
  have parts : keyParts? (78 + 1) (name.toList ++ (blanks ++ mark :: rest)) = some ([name], mark :: rest) := by
    rw [keyParts?, unblanked, key_part_bare bare _ stopped]
    simp only [Option.bind_eq_bind, Option.bind_some, skipBlanks, Text.skip_to_mark isBlank blanks blank mark plain]
    split
    · rename_i same
      exact absurd (List.cons.inj same).1 undotted
    · rfl
  rw [key?, show nestingLimit = 78 + 1 from rfl, parts]
  rfl

end Keys

theorem quoted_quote (content : String) (mark : Char) (unquoted : mark ≠ '"') (rest : List Char) :
    quoted? (quote content ++ mark :: rest) = some (content.toList, mark :: rest) := by
  have text : quote content ++ mark :: rest = '"' :: (content.toList.flatMap escapeChar ++ '"' :: mark :: rest) := by
    simp [quote]
  -- Three quotes would open a text over several lines, but behind the first one no two further quotes can stand.
  have single : opens '"' (quote content ++ mark :: rest) = false := by
    rw [text]
    cases content.toList with
    | nil => simp [opens, List.isPrefixOf, unquoted.symm]
    | cons c others =>
        rw [List.flatMap_cons, escapeChar]
        split
        · rfl
        split
        · rfl
        split
        · rfl
        · rename_i other _ _
          simp [opens, List.isPrefixOf, Ne.symm other]
  have literal : opens '\'' (quote content ++ mark :: rest) = false := by
    rw [text]
    rfl
  rw [quoted?, single, literal, text]
  exact basic_body_escaped content.toList (mark :: rest)

def scalarText : (kind : Kind) → kind.Value → List Char
  | .id, id => quote id.text
  | .text, content => quote content
  | .flag, b => if b then ['t', 'r', 'u', 'e'] else ['f', 'a', 'l', 's', 'e']
  | .code, code => quote code.name
  | .mode, mode => quote mode.name

def scalarValue : (kind : Kind) → kind.Value → Value
  | .id, id => .text id.text
  | .text, content => .text content
  | .flag, b => .boolean b
  | .code, code => .text code.name
  | .mode, mode => .text mode.name

theorem value_quote (depth : Nat) (content : String) (mark : Char) (unquoted : mark ≠ '"') (rest : List Char) :
    value? depth (quote content ++ mark :: rest) = some (.text content, mark :: rest) := by
  have read := quoted_quote content mark unquoted rest
  rw [quote, List.cons_append, List.cons_append] at read ⊢
  rw [value?, read, Option.map_some]
  dsimp only
  rw [String.ofList_toList]

theorem value_written (depth : Nat) (kind : Kind) (value : kind.Value) (mark : Char) (unquoted : mark ≠ '"')
    (rest : List Char) :
    value? depth (scalarText kind value ++ mark :: rest) = some (scalarValue kind value, mark :: rest) := by
  cases kind with
  | id => exact value_quote depth value.text mark unquoted rest
  | text => exact value_quote depth value mark unquoted rest
  | flag =>
      cases value with
      | true =>
          change value? depth ('t' :: 'r' :: 'u' :: 'e' :: mark :: rest) = _
          rw [value?]
          rfl
      | false =>
          change value? depth ('f' :: 'a' :: 'l' :: 's' :: 'e' :: mark :: rest) = _
          rw [value?]
          rfl
  | code => exact value_quote depth value.name mark unquoted rest
  | mode => exact value_quote depth value.name mark unquoted rest

structure Writes (text : List Char) (line : Line) : Prop where
  starts : ∃ c body, text = c :: body ∧ isBlank c = false ∧ isLineStart c = true
  reads : ∀ rest, line? (text ++ '\n' :: rest) = some (line, '\n' :: rest)

def pairText (name : String) (value : List Char) : List Char := name.toList ++ ' ' :: '=' :: ' ' :: value

def headerText (opening : Opening) (name : String) : List Char :=
  match opening with
  | .table => '[' :: (name.toList ++ [']'])
  | .element => '[' :: '[' :: (name.toList ++ [']', ']'])

theorem line_pair (c : Char) (rest : List Char) (unbracketed : c ≠ '[') :
    line? (c :: rest) = (pair? (value? nestingLimit) (c :: rest)).map fun (pair, rest) => (.pair pair, rest) := by
  unfold line?
  split
  · rename_i same
    exact absurd (List.cons.inj same).1 unbracketed
  · rename_i same
    exact absurd (List.cons.inj same).1 unbracketed
  · rfl

theorem line_table (c : Char) (rest behind : List Char) (name : String) (unbracketed : c ≠ '[')
    (key : key? (c :: rest) = some (([], name), ']' :: behind)) :
    line? ('[' :: c :: rest) = some (.header .table [] name, behind) := by
  unfold line?
  split
  · rename_i same
    exact absurd (List.cons.inj (List.cons.inj same).2).1 unbracketed
  · rename_i same
    cases same
    rw [key]
    rfl
  · rename_i other
    exact absurd rfl (other (c :: rest))

theorem line_element (rest behind : List Char) (name : String)
    (key : key? rest = some (([], name), ']' :: ']' :: behind)) :
    line? ('[' :: '[' :: rest) = some (.header .element [] name, behind) := by
  rw [line?, key]
  rfl

section Lines

variable {name : String} (bare : isBareName name = true)
include bare

theorem writes_pair (kind : Kind) (value : kind.Value) :
    Writes (pairText name (scalarText kind value)) (.pair ⟨[], name, scalarValue kind value⟩) := by
  obtain ⟨c, body, text, first⟩ := bare_head bare
  refine ⟨⟨c, _, by rw [pairText, text]; rfl, bare_not_blank c first, bare_line_start c first⟩, ?_⟩
  intro rest
  have key := key_bare bare [' '] (by simp [isBlank]) '=' rfl rfl (by decide)
    (' ' :: (scalarText kind value ++ '\n' :: rest))
  have gap : skipBlanks (' ' :: (scalarText kind value ++ '\n' :: rest)) = scalarText kind value ++ '\n' :: rest := by
    cases kind with
    | flag => cases value <;> rfl
    | _ => rfl
  have read : pair? (value? nestingLimit) (pairText name (scalarText kind value) ++ '\n' :: rest) =
      some (⟨[], name, scalarValue kind value⟩, '\n' :: rest) := by
    rw [pairText, List.append_assoc]
    change pair? (value? nestingLimit)
      (name.toList ++ ([' '] ++ '=' :: ' ' :: (scalarText kind value ++ '\n' :: rest))) = _
    rw [pair?, key]
    simp only [Option.bind_eq_bind, Option.bind_some, Text.mark?, if_true, gap, value_written _ kind value '\n' (by decide)]
    rfl
  have head : pairText name (scalarText kind value) ++ '\n' :: rest =
      c :: (body ++ ' ' :: '=' :: ' ' :: scalarText kind value ++ '\n' :: rest) := by
    rw [pairText, text]
    rfl
  rw [head] at read ⊢
  rw [line_pair c _ (bare_avoids c '[' first rfl), read]
  rfl

theorem writes_header (opening : Opening) : Writes (headerText opening name) (.header opening [] name) := by
  cases opening with
  | table =>
      refine ⟨⟨'[', _, rfl, rfl, rfl⟩, ?_⟩
      intro rest
      obtain ⟨c, body, text, first⟩ := bare_head bare
      have key := key_bare bare [] (by simp) ']' rfl rfl (by decide) ('\n' :: rest)
      have head : headerText .table name ++ '\n' :: rest = '[' :: c :: (body ++ ']' :: '\n' :: rest) := by
        simp [headerText, text]
      rw [text, List.nil_append, List.cons_append] at key
      rw [head]
      exact line_table c _ _ name (bare_avoids c '[' first rfl) key
  | element =>
      refine ⟨⟨'[', _, rfl, rfl, rfl⟩, ?_⟩
      intro rest
      have key := key_bare bare [] (by simp) ']' rfl rfl (by decide) (']' :: '\n' :: rest)
      have head : headerText .element name ++ '\n' :: rest = '[' :: '[' :: (name.toList ++ ']' :: ']' :: '\n' :: rest) := by
        simp [headerText]
      rw [head]
      exact line_element _ _ name key

end Lines

theorem line_end_newline (rest : List Char) : lineEnd? ('\n' :: rest) = some rest := rfl

theorem lines_written (texts : List (List Char)) (lines : List Line) (written : List.Forall₂ Writes texts lines)
    (rounds : Nat) (enough : texts.length ≤ rounds) :
    lines? rounds (texts.flatMap fun text => text ++ ['\n']) = some lines := by
  induction written generalizing rounds with
  | nil => cases rounds <;> rfl
  | @cons text line texts lines first others ih =>
      obtain ⟨rounds, rfl⟩ : ∃ n, rounds = n + 1 := Nat.exists_eq_succ_of_ne_zero (Nat.ne_zero_of_lt enough)
      obtain ⟨c, body, head, unblanked, start⟩ := first.starts
      have read := first.reads (texts.flatMap fun text => text ++ ['\n'])
      rw [head, List.cons_append] at read
      rw [List.flatMap_cons, head, List.append_assoc, List.cons_append, List.singleton_append, lines?,
        skipBlanks, List.dropWhile_cons, unblanked]
      simp only [Bool.false_eq_true, if_false, start, if_true, read, Option.bind_eq_bind, Option.bind_some,
        line_end_newline, ih rounds (Nat.le_of_succ_le_succ enough)]
      rfl

theorem lines_length (texts : List (List Char)) :
    texts.length ≤ (texts.flatMap fun text => text ++ ['\n']).length := by
  induction texts with
  | nil => exact Nat.le_refl 0
  | cons text others ih =>
      rw [List.flatMap_cons, List.length_append, List.length_append, List.length_cons, List.length_singleton]
      omega

theorem blocks_pairs (pairs : List Pair) (lines : List Line) :
    blocks (pairs.map .pair ++ lines) = (pairs ++ (blocks lines).1, (blocks lines).2) := by
  induction pairs with
  | nil => rfl
  | cons pair others ih =>
      rw [List.map_cons, List.cons_append, blocks, ih]
      rfl

section Assigned

variable {fields : List Field}

def assignedTexts (assignments : List (Assignment fields)) : List (List Char) :=
  assignments.map fun assignment => pairText assignment.1.name (scalarText assignment.1.kind assignment.2)

def assignedPairs (assignments : List (Assignment fields)) : List Pair :=
  assignments.map fun assignment => ⟨[], assignment.1.name, scalarValue assignment.1.kind assignment.2⟩

def assignedMembers (assignments : List (Assignment fields)) : Members :=
  assignments.map fun assignment => (assignment.1.name, scalarValue assignment.1.kind assignment.2)

theorem assigned_written (bare : ∀ field ∈ fields, isBareName field.name = true)
    (assignments : List (Assignment fields)) :
    List.Forall₂ Writes (assignedTexts assignments) ((assignedPairs assignments).map .pair) := by
  induction assignments with
  | nil => exact .nil
  | cons assignment others ih =>
      have named : isBareName assignment.1.name = true := by
        obtain ⟨field, member, same⟩ := List.mem_map.mp assignment.1.name_mem
        rw [← same]
        exact bare field member
      exact .cons (writes_pair named assignment.1.kind assignment.2) ih

theorem insert_assigned (distinct : (fields.map Field.name).Nodup) (assignments : List (Assignment fields))
    (separate : (assignments.map Sigma.fst).Nodup) (members : Members)
    (fresh : ∀ assignment ∈ assignments, assignment.1.name ∉ members.map Prod.fst) :
    insertAll (assignedPairs assignments) members = some (members ++ assignedMembers assignments) := by
  induction assignments generalizing members with
  | nil => exact congrArg some (List.append_nil members).symm
  | cons assignment others ih =>
      rw [List.map_cons, List.nodup_cons] at separate
      have absent : members.lookup assignment.1.name = none := by
        rw [List.lookup_eq_none_iff]
        intro member inside
        rw [bne_iff_ne]
        intro same
        exact fresh assignment List.mem_cons_self (same ▸ List.mem_map_of_mem inside)
      have added : insert assignment.1.name (scalarValue assignment.1.kind assignment.2) [] members =
          some (members ++ [(assignment.1.name, scalarValue assignment.1.kind assignment.2)]) := by
        rw [insert, insertNew, absent]
        rfl
      rw [assignedPairs, List.map_cons, insertAll, List.foldlM_cons, added]
      refine (ih separate.2 _ ?_).trans ?_
      · intro other member
        rw [List.map_append, List.mem_append, not_or]
        refine ⟨fresh other (List.mem_cons_of_mem _ member), ?_⟩
        simp only [List.map_cons, List.map_nil, List.mem_singleton]
        intro same
        apply separate.1
        rw [← Slot.name_injective distinct other.1 assignment.1 same]
        exact List.mem_map_of_mem member
      · rw [List.append_assoc]
        rfl

theorem scalar_read (kind : Kind) (value : kind.Value) : scalar kind (scalarValue kind value) = .ok value := by
  cases kind with
  | id =>
      have known : SampleId.ofText? value.text = some value := dif_pos value.valid
      simp only [scalar, scalarValue, text, bind, Except.bind, known]
      rfl
  | text => rfl
  | flag => rfl
  | code => cases value <;> rfl
  | mode => cases value <;> rfl

theorem fill_assigned (distinct : (fields.map Field.name).Nodup) (assignments : List (Assignment fields))
    (draft : Draft fields) : fill (assignedMembers assignments) draft = .ok (draft.assign assignments) := by
  induction assignments generalizing draft with
  | nil => rfl
  | cons assignment others ih =>
      rw [assignedMembers, List.map_cons, fill, assignment.1.find_name distinct]
      simp only [scalar_read, bind, Except.bind]
      exact ih (draft.set assignment.1 assignment.2)

end Assigned

theorem record_table {α : Type} (layout : Layout α) (faithful : layout.Faithful) (form : Form) (a : α) :
    record layout (.table form (assignedMembers (Row.assignments layout.fields (layout.toRow a)))) = .ok a := by
  rw [record, fill_assigned faithful.distinct]
  exact layout.finish_assigned faithful a

end Showcase.Toml
