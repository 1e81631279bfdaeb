import Mathlib
import Showcase.Proofs.Acceptance
import Showcase.Proofs.Catalog
import Showcase.Proofs.Members
import Showcase.Proofs.Nesting
/-!
What documents mean whatever the order of their keys is, and whatever keys they have that no field is named by. Tables
and objects are compared entry by entry, a catalog also table by table within it.
-/
set_option autoImplicit false

namespace Showcase

open Record (Layout Field Draft Row Kind Unrepeated known)

namespace Json

def written (kind : Kind) (value : kind.Value) : List Char := (scalarText kind value).toList

theorem value_of_written (kind : Kind) (value : kind.Value) : valueOf? kind (written kind value) = some value := by
  have read := @scalar_written [] blank_nil kind value []
  rw [List.nil_append, List.append_nil] at read
  rw [valueOf?, written, read]
  rfl

/-- Objects with the same fields are read alike: both are refused, or both are read as the same value. -/
structure Indifferent {α : Type} (layout : Layout α) : Prop where
  unchanged : ∀ before after : Object, Unrepeated layout.names before.entries →
    Record.Rewritten layout.names before.entries after.entries →
    (document (record layout) before.text).toOption = (document (record layout) after.text).toOption
  accepted : ∀ (a : α) (object : Object), Record.Rewritten layout.names (layout.written written a) object.entries →
    document (record layout) object.text = .ok a

theorem indifferent {α : Type} (layout : Layout α) (faithful : layout.Faithful)
    (plain : ∀ field ∈ layout.fields, Plain field.kind) : Indifferent layout := by
  refine ⟨document_rewritten layout plain, fun a object rewritten => ?_⟩
  have once := rewritten.unrepeated (layout.written_unrepeated written faithful a)
  have decoded := document_decoded layout plain object once
  rw [layout.decoded_written valueOf? written faithful a value_of_written object.entries rewritten] at decoded
  exact to_option_some decoded

end Json

namespace Toml

def fieldOf? (kind : Kind) (value : Value) : Option kind.Value := (scalar kind value).toOption

theorem fill_decoded {fields : List Field} (members : Members) (draft : Draft fields) :
    (fill members draft).toOption = (Record.assignments? fieldOf? fields members).map draft.assign := by
  induction members generalizing draft with
  | nil => rfl
  | cons entry rest ih =>
      obtain ⟨key, value⟩ := entry
      rw [fill]
      cases found : Record.Slot.find? key fields with
      | none => rw [Record.assignments_unknown fieldOf? fields key value rest found, ← ih draft]
      | some slot =>
          rw [Record.assignments_field fieldOf? fields key value rest slot found]
          change ((scalar slot.kind value).bind fun value => fill rest (draft.set slot value)).toOption = _
          rw [to_option_bind, fieldOf?]
          cases (scalar slot.kind value).toOption with
          | none => rfl
          | some held =>
              simp only [Option.bind_some, ih, Option.map_map]
              rfl

section Tables

variable {α : Type} (layout : Layout α)

theorem table_decoded (form : Form) (members : Members) :
    (record layout (.table form members)).toOption = layout.decoded? fieldOf? members := by
  change ((fill members (Draft.empty layout.fields)).bind layout.finish).toOption = _
  rw [to_option_bind, fill_decoded, Layout.decoded?, Option.bind_map]
  rfl

theorem table_rewritten (form other : Form) (before after : Members) (once : Unrepeated layout.names before)
    (rewritten : Record.Rewritten layout.names before after) :
    (record layout (.table form before)).toOption = (record layout (.table other after)).toOption := by
  rw [table_decoded, table_decoded, layout.decoded_rewritten fieldOf? before after rewritten once]

structure Indifferent : Prop where
  unchanged : ∀ (form other : Form) (before after : Members), Distinct before →
    Record.Rewritten layout.names before after →
    (record layout (.table form before)).toOption = (record layout (.table other after)).toOption
  accepted : ∀ (a : α) (form : Form) (members : Members),
    Record.Rewritten layout.names (layout.written scalarValue a) members → record layout (.table form members) = .ok a

theorem indifferent (faithful : layout.Faithful) : Indifferent layout := by
  refine ⟨fun form other before after distinct => ?_, fun a form members rewritten => ?_⟩
  · exact table_rewritten layout form other before after (Record.unrepeated_of_distinct _ before distinct)
  · have restored : ∀ kind value, fieldOf? kind (scalarValue kind value) = some value := by
      intro kind value
      rw [fieldOf?, scalar_read]
      rfl
    have decoded := table_decoded layout form members
    rw [layout.decoded_written fieldOf? scalarValue faithful a restored members rewritten] at decoded
    exact to_option_some decoded

end Tables

end Toml

namespace Catalog

open Toml (Members Value Form Distinct SoundMembers)

def names : List String := ["artifacts", "samples"]

/-- Rewriting the keys of a catalog, of its rule, or of one of its samples, which keep their order. -/
inductive Rewritten : Members → Members → Prop where
  | keys (before after : Members) (rewritten : Record.Rewritten names before after) : Rewritten before after
  | rule (front back : Members) (form other : Form) (before after : Members)
      (rewritten : Record.Rewritten ArtifactRule.layout.names before after) :
      Rewritten (front ++ ("artifacts", .table form before) :: back) (front ++ ("artifacts", .table other after) :: back)
  | sample (front back : Members) (extensible again : Bool) (earlier later : List Value) (form other : Form)
      (before after : Members) (rewritten : Record.Rewritten SampleEntry.layout.names before after) :
      Rewritten (front ++ ("samples", .array extensible (earlier ++ .table form before :: later)) :: back)
        (front ++ ("samples", .array again (earlier ++ .table other after :: later)) :: back)
  | trans (before between after : Members) (first : Rewritten before between) (second : Rewritten between after) :
      Rewritten before after

structure Once (members : Members) : Prop where
  keys : Unrepeated names members
  rule : ∀ form inner, ("artifacts", .table form inner) ∈ members → Unrepeated ArtifactRule.layout.names inner
  samples : ∀ extensible items form inner, ("samples", .array extensible items) ∈ members →
    .table form inner ∈ items → Unrepeated SampleEntry.layout.names inner

theorem sound_once (members : Members) (held : SoundMembers members) : Once members := by
  refine ⟨Record.unrepeated_of_distinct _ members held.distinct, fun form inner inside => ?_,
    fun extensible items form inner inside member => ?_⟩
  · exact Record.unrepeated_of_distinct _ inner (held.sound _ inside).members.distinct
  · exact Record.unrepeated_of_distinct _ inner ((held.sound _ inside).items _ member).members.distinct

section Keys

theorem read_unknown (catalog : Catalog) (key : String) (value : Value) (unknown : key ∉ names) :
    readMember catalog (key, value) = .ok catalog := by
  simp only [names, List.mem_cons, List.not_mem_nil, or_false, not_or] at unknown
  rw [readMember, if_neg unknown.1, if_neg unknown.2]

theorem fold_known (members : Members) (catalog : Catalog) :
    members.foldlM readMember catalog = (known names members).foldlM readMember catalog := by
  induction members generalizing catalog with
  | nil => rfl
  | cons entry rest ih =>
      obtain ⟨key, value⟩ := entry
      by_cases named : key ∈ names
      · rw [Record.known_cons names key value rest named, List.foldlM_cons, List.foldlM_cons]
        exact congrArg (readMember catalog (key, value) >>= ·) (funext ih)
      · rw [Record.known_cons_unknown names key value rest named, List.foldlM_cons, read_unknown catalog key value named]
        exact ih catalog

theorem lookup_iff (members : Members) (distinct : Distinct members) (key : String) (value : Value) :
    members.lookup key = some value ↔ (key, value) ∈ members := by
  induction members with
  | nil => simp
  | cons entry rest ih =>
      obtain ⟨name, held⟩ := entry
      obtain ⟨fresh, others⟩ := List.nodup_cons.mp distinct
      rw [List.lookup_cons, List.mem_cons]
      by_cases same : key = name
      · subst same
        have absent : (key, value) ∉ rest := fun inside => fresh (List.mem_map.mpr ⟨_, inside, rfl⟩)
        simp [absent, eq_comm]
      · rw [beq_false_of_ne same]
        simp [same, ih others]

theorem lookup_perm (before after : Members) (order : before.Perm after) (distinct : Distinct before) (key : String) :
    before.lookup key = after.lookup key := by
  have others : Distinct after := (order.map Prod.fst).nodup_iff.mp distinct
  ext value
  rw [lookup_iff before distinct, lookup_iff after others, order.mem_iff]

theorem of_members_keys (before after : Members) (once : Unrepeated names before)
    (rewritten : Record.Rewritten names before after) :
    (ofMembers before).toOption = (ofMembers after).toOption := by
  have order := rewritten.known_perm
  have left : Distinct (known names before) := once
  have right : Distinct (known names after) := rewritten.unrepeated once
  have same : ∀ catalog, ofMembers before = .ok catalog ↔ ofMembers after = .ok catalog := by
    intro catalog
    rw [of_members_eq, of_members_eq, fold_known before, fold_known after, fold_members_iff _ left, fold_members_iff _ right,
      member, member, member, member, lookup_perm _ _ order left, lookup_perm _ _ order left]
  ext catalog
  cases first : ofMembers before <;> cases second : ofMembers after <;> simp_all [Except.toOption]

end Keys

section Steps

theorem of_members_entry (front back : Members) (entry other : String × Value)
    (same : ∀ catalog, (readMember catalog entry).toOption = (readMember catalog other).toOption) :
    (ofMembers (front ++ entry :: back)).toOption = (ofMembers (front ++ other :: back)).toOption := by
  have parts : ∀ entry, (ofMembers (front ++ entry :: back)).toOption =
      ((front.foldlM readMember {}).toOption.bind fun catalog => (readMember catalog entry).toOption).bind
        fun catalog => (back.foldlM readMember catalog).toOption := by
    intro entry
    rw [of_members_eq, List.foldlM_append]
    change ((front.foldlM readMember {}).bind fun catalog =>
      (readMember catalog entry).bind fun catalog => back.foldlM readMember catalog).toOption = _
    simp only [to_option_bind, Option.bind_assoc]
  simp only [parts, same]

theorem map_to_option {α β : Type} (x y : Except ValueFault α) (f : α → β) (same : x.toOption = y.toOption) :
    (x.map f).toOption = (y.map f).toOption := by
  cases x <;> cases y <;> simp_all [Except.map, Except.toOption]

theorem list_element {α : Type} (item : Value → Except ValueFault α) (extensible again : Bool)
    (earlier later : List Value) (value other : Value) (same : (item value).toOption = (item other).toOption) :
    (Toml.list item (.array extensible (earlier ++ value :: later))).toOption =
      (Toml.list item (.array again (earlier ++ other :: later))).toOption := by
  have parts : ∀ value, ((earlier ++ value :: later).mapM item).toOption =
      (earlier.mapM item).toOption.bind fun first => (item value).toOption.bind fun a =>
        (later.mapM item).toOption.bind fun rest => some (first ++ a :: rest) := by
    intro value
    rw [List.mapM_append, List.mapM_cons]
    change ((earlier.mapM item).bind fun first => ((item value).bind fun a =>
      (later.mapM item).bind fun rest => .ok (a :: rest)).bind fun rest => .ok (first ++ rest)).toOption = _
    simp only [to_option_bind, Option.bind_assoc]
    rfl
  change (List.mapM item _).toOption = (List.mapM item _).toOption
  rw [parts, parts, same]

variable (front back : Members)

theorem entry_unrepeated (key : String) (value other : Value)
    (once : Unrepeated names (front ++ (key, value) :: back)) : Unrepeated names (front ++ (key, other) :: back) := by
  rw [Unrepeated, known, List.filter_append, List.map_append] at once ⊢
  by_cases named : key ∈ names <;> simpa [named] using once

theorem entry_mem (key : String) (value other : Value) (entry : String × Value)
    (inside : entry ∈ front ++ (key, other) :: back) :
    entry ∈ front ++ (key, value) :: back ∨ entry = (key, other) := by
  simp only [List.mem_append, List.mem_cons] at inside ⊢
  tauto

theorem rule_step (form other : Form) (before after : Members)
    (rewritten : Record.Rewritten ArtifactRule.layout.names before after)
    (once : Once (front ++ ("artifacts", .table form before) :: back)) :
    Once (front ++ ("artifacts", .table other after) :: back) ∧
      (ofMembers (front ++ ("artifacts", .table form before) :: back)).toOption =
        (ofMembers (front ++ ("artifacts", .table other after) :: back)).toOption := by
  have held := once.rule form before (by simp)
  refine ⟨⟨entry_unrepeated front back _ _ _ once.keys, fun shape inner inside => ?_,
    fun extensible items shape inner inside => ?_⟩, ?_⟩
  · rcases entry_mem front back _ (.table form before) _ _ inside with earlier | changed
    · exact once.rule shape inner earlier
    · cases changed
      exact rewritten.unrepeated held
  · rcases entry_mem front back _ (.table form before) _ _ inside with earlier | changed
    · exact once.samples extensible items shape inner earlier
    · exact absurd (Prod.mk.inj changed).1 (by decide)
  · apply of_members_entry
    intro catalog
    rw [readMember, readMember, if_pos rfl, if_pos rfl]
    exact map_to_option _ _ _ (Toml.table_rewritten _ form other before after held rewritten)

theorem sample_step (extensible again : Bool) (earlier later : List Value) (form other : Form) (before after : Members)
    (rewritten : Record.Rewritten SampleEntry.layout.names before after)
    (once : Once (front ++ ("samples", .array extensible (earlier ++ .table form before :: later)) :: back)) :
    Once (front ++ ("samples", .array again (earlier ++ .table other after :: later)) :: back) ∧
      (ofMembers (front ++ ("samples", .array extensible (earlier ++ .table form before :: later)) :: back)).toOption =
        (ofMembers (front ++ ("samples", .array again (earlier ++ .table other after :: later)) :: back)).toOption := by
  have listed := once.samples extensible (earlier ++ .table form before :: later)
  have held := listed form before (by simp) (by simp)
  refine ⟨⟨entry_unrepeated front back _ _ _ once.keys, fun shape inner inside => ?_,
    fun kind items shape inner inside member => ?_⟩, ?_⟩
  · rcases entry_mem front back _ (.array extensible (earlier ++ .table form before :: later)) _ _ inside
      with former | changed
    · exact once.rule shape inner former
    · exact absurd (Prod.mk.inj changed).1 (by decide)
  · rcases entry_mem front back _ (.array extensible (earlier ++ .table form before :: later)) _ _ inside
      with former | changed
    · exact once.samples kind items shape inner former member
    · cases changed
      rcases List.mem_append.mp member with left | right
      · exact listed shape inner (by simp) (List.mem_append_left _ left)
      · rcases List.mem_cons.mp right with here | behind
        · cases here
          exact rewritten.unrepeated held
        · exact listed shape inner (by simp) (List.mem_append_right _ (List.mem_cons_of_mem _ behind))
  · apply of_members_entry
    intro catalog
    have unlike : "samples" ≠ "artifacts" := by decide
    rw [readMember, readMember, if_neg unlike, if_neg unlike, if_pos rfl, if_pos rfl]
    apply map_to_option
    apply list_element
    exact Toml.table_rewritten _ form other before after held rewritten

end Steps

theorem keys_once (before after : Members) (rewritten : Record.Rewritten names before after) (once : Once before) :
    Once after := by
  have earlier : ∀ key ∈ names, ∀ value, (key, value) ∈ after → (key, value) ∈ before := by
    intro key named value inside
    have listed : (key, value) ∈ known names after := List.mem_filter.mpr ⟨inside, decide_eq_true named⟩
    exact List.mem_of_mem_filter (rewritten.known_perm.mem_iff.mpr listed)
  refine ⟨rewritten.unrepeated once.keys, fun form inner inside => ?_, fun extensible items form inner inside => ?_⟩
  · exact once.rule form inner (earlier "artifacts" (by decide) _ inside)
  · exact once.samples extensible items form inner (earlier "samples" (by decide) _ inside)

theorem of_members_rewritten (before after : Members) (rewritten : Rewritten before after) (once : Once before) :
    Once after ∧ (ofMembers before).toOption = (ofMembers after).toOption := by
  -- By induction on the steps, each of which leaves every field there once.
  induction rewritten with
  | keys before after rewritten =>
      exact ⟨keys_once before after rewritten once, of_members_keys before after once.keys rewritten⟩
  | rule front back form other before after rewritten => exact rule_step front back form other before after rewritten once
  | sample front back extensible again earlier later form other before after rewritten =>
      exact sample_step front back extensible again earlier later form other before after rewritten once
  | trans before between after _ _ first second =>
      obtain ⟨middle, former⟩ := first once
      obtain ⟨last, latter⟩ := second middle
      exact ⟨last, former.trans latter⟩

def written (catalog : Catalog) : Members :=
  [("artifacts", Toml.tableValue ArtifactRule.layout catalog.rule),
   ("samples", .array true (catalog.samples.map (Toml.tableValue SampleEntry.layout)))]

theorem written_once (catalog : Catalog) : Once catalog.written := by
  have distinct : Distinct catalog.written := show names.Nodup by decide
  refine ⟨Record.unrepeated_of_distinct _ _ distinct, fun form inner inside => ?_,
    fun extensible items form inner inside member => ?_⟩
  · simp only [written, List.mem_cons, Prod.mk.injEq, List.not_mem_nil, or_false] at inside
    rcases inside with ⟨_, held⟩ | ⟨unlike, _⟩
    · cases held
      exact ArtifactRule.layout.written_unrepeated Toml.scalarValue ArtifactRule.layout_faithful catalog.rule
    · exact absurd unlike (by decide)
  · simp only [written, List.mem_cons, Prod.mk.injEq, List.not_mem_nil, or_false] at inside
    rcases inside with ⟨unlike, _⟩ | ⟨_, held⟩
    · exact absurd unlike (by decide)
    · cases held
      obtain ⟨entry, _, same⟩ := List.mem_map.mp member
      cases same
      exact SampleEntry.layout.written_unrepeated Toml.scalarValue SampleEntry.layout_faithful entry

structure Indifferent : Prop where
  unchanged : ∀ before after : Members, SoundMembers before → Rewritten before after →
    (ofMembers before).toOption = (ofMembers after).toOption
  accepted : ∀ (catalog : Catalog) (members : Members), Rewritten catalog.written members →
    ofMembers members = .ok catalog

theorem indifferent : Indifferent := by
  refine ⟨fun before after held rewritten => ?_, fun catalog members rewritten => ?_⟩
  · exact (of_members_rewritten before after rewritten (sound_once before held)).2
  · have same := (of_members_rewritten catalog.written members rewritten catalog.written_once).2
    rw [written, of_members_written] at same
    exact to_option_some same.symm

end Catalog

namespace Registry

open Toml (Members)

/-- Documents whose tables have the same fields give the same registry, or are refused for the same reason, unless a
value in both of them is wrong: which one is reported depends on the order. -/
def Indifferent : Prop := ∀ (document other : String) (before after : Members),
  Toml.parse? document = some before → Toml.parse? other = some after → Catalog.Rewritten before after →
  ofDocument document = ofDocument other ∨
    ∃ fault cause, ofDocument document = .error (.catalogParse (.value fault)) ∧
      ofDocument other = .error (.catalogParse (.value cause))

theorem indifferent : Indifferent := by
  intro document other before after parsed again rewritten
  have same := Catalog.indifferent.unchanged before after (Toml.parse_sound document before parsed) rewritten
  rw [ofDocument, ofDocument, Catalog.read, Catalog.read, parsed, again]
  dsimp only
  cases first : Catalog.ofMembers before with
  | error fault =>
      cases second : Catalog.ofMembers after with
      | error cause => exact .inr ⟨fault, cause, rfl, rfl⟩
      | ok catalog =>
          rw [first, second] at same
          cases same
  | ok catalog =>
      rw [first] at same
      rw [to_option_some same.symm]
      exact .inl rfl

end Registry

theorem rewriting_indifferent :
    (Json.Indifferent SampleEntry.layout ∧ Json.Indifferent SampleSummary.layout ∧ Json.Indifferent View.layout ∧
      Json.Indifferent NavItem.layout ∧ Json.Indifferent ArtifactRule.layout) ∧
    (∀ document members, Toml.parse? document = some members → Toml.SoundMembers members) ∧
    (Toml.Indifferent SampleEntry.layout ∧ Toml.Indifferent ArtifactRule.layout) ∧ Catalog.Indifferent ∧
    Registry.Indifferent :=
  ⟨⟨Json.indifferent _ SampleEntry.layout_faithful (by decide), Json.indifferent _ SampleSummary.layout_faithful (by decide),
    Json.indifferent _ View.layout_faithful (by decide), Json.indifferent _ NavItem.layout_faithful (by decide),
    Json.indifferent _ ArtifactRule.layout_faithful (by decide)⟩,
    Toml.parse_sound,
    ⟨Toml.indifferent _ SampleEntry.layout_faithful, Toml.indifferent _ ArtifactRule.layout_faithful⟩,
    Catalog.indifferent, Registry.indifferent⟩

namespace Json

theorem blank_single (c : Char) (blank : isBlank c = true) : Blank [c] := by
  intro d member
  rwa [List.mem_singleton.mp member]

def bare (key : String) (name value : List Char) (spelled : Spelled name key.toList)
    (wellformed : Wellformed .value value) : Member where
  lead := []
  key := key
  name := name
  gap := []
  front := []
  value := value
  back := []
  lead_blank := blank_nil
  spelled := spelled
  gap_blank := blank_nil
  front_blank := blank_nil
  wellformed := wellformed
  back_blank := blank_nil

def standsPlain (c : Char) : Bool := c != '"' && c != '\\' && 0x20 ≤ c.toNat

theorem stands_plain_iff (c : Char) : standsPlain c = true ↔ c ≠ '"' ∧ c ≠ '\\' ∧ 0x20 ≤ c.toNat := by
  simp [standsPlain, and_assoc]

theorem spelled_plain (content : List Char) (plain : content.all standsPlain = true) :
    Spelled (content ++ ['"']) content := by
  induction content with
  | nil => exact .close
  | cons c rest ih =>
      rw [List.all_cons, Bool.and_eq_true, stands_plain_iff] at plain
      obtain ⟨⟨unquoted, unescaped, printed⟩, others⟩ := plain
      exact .plain c _ rest unquoted unescaped printed (ih others)

theorem letter_wellformed (c : Char) (plain : standsPlain c = true) : Wellformed .value ['"', c, '"'] := by
  obtain ⟨unquoted, unescaped, printed⟩ := (stands_plain_iff c).mp plain
  exact .scalar _ (.quoted _ (.plain c _ unquoted unescaped printed .close))

def idMember : Member :=
  bare "id" ['i', 'd', '"'] ['"', 'a', '"'] (spelled_plain ['i', 'd'] rfl) (letter_wellformed 'a' rfl)

def titleMember : Member :=
  bare "title" ['t', 'i', 't', 'l', 'e', '"'] ['"', 'T', '"'] (spelled_plain ['t', 'i', 't', 'l', 'e'] rfl)
    (letter_wellformed 'T' rfl)

theorem escaped_title : Spelled ['\\', 'u', '0', '0', '7', '4', 'i', 't', 'l', 'e', '"'] ['t', 'i', 't', 'l', 'e'] :=
  .unit ['0', '0', '7', '4'] 0x74 ['i', 't', 'l', 'e', '"'] ['i', 't', 'l', 'e'] ⟨rfl, rfl⟩ ⟨rfl, rfl⟩
    (spelled_plain ['i', 't', 'l', 'e'] rfl)

def escapedTitle : Member where
  lead := [' ']
  key := "title"
  name := ['\\', 'u', '0', '0', '7', '4', 'i', 't', 'l', 'e', '"']
  gap := ['\t']
  front := []
  value := ['"', 'T', '"']
  back := ['\n']
  lead_blank := blank_single ' ' rfl
  spelled := escaped_title
  gap_blank := blank_single '\t' rfl
  front_blank := blank_nil
  wellformed := letter_wellformed 'T' rfl
  back_blank := blank_single '\n' rfl

def nestedText : List Char :=
  ['[', '-', '1', '.', '5', 'e', '+', '2', ',', '\x7b', '"', '\\', 'u', 'd', '8', '0', '0', '"', ':', 'n', 'u', 'l', 'l',
   '\x7d', ']']

theorem nested_wellformed : Wellformed .value nestedText := by
  have digit : ∀ c, c.isDigit = true → Digits [c] := fun c held => ⟨by simp, by simpa using held⟩
  have number : Number ['1', '.', '5', 'e', '+', '2'] :=
    .parts ['1'] ['.', '5'] ['e', '+', '2'] (.digits _ (digit '1' rfl) (by decide)) (.point _ (digit '5' rfl))
      (.mark 'e' ['+'] ['2'] (.inl rfl) (by decide) (digit '2' rfl))
  have half : Quoted ['\\', 'u', 'd', '8', '0', '0', '"'] := .unit ['d', '8', '0', '0'] 0xD800 ['"'] ⟨rfl, rfl⟩ .close
  have object : Wellformed .value ['\x7b', '"', '\\', 'u', 'd', '8', '0', '0', '"', ':', 'n', 'u', 'l', 'l', '\x7d'] :=
    .filled .object _
      (.last .object _ ['n', 'u', 'l', 'l'] [] (.object [] _ [] [] blank_nil half blank_nil blank_nil) (.scalar _ .null) blank_nil)
  exact .filled .array _ (.more .array [] _ [] _ (.array [] blank_nil) (.scalar _ (.negative _ number)) blank_nil
    (.last .array [] _ [] (.array [] blank_nil) object blank_nil))

def nestedMember : Member := bare "x" ['x', '"'] nestedText (spelled_plain ['x'] rfl) nested_wellformed

def nullMember : Member :=
  bare "x" ['x', '"'] ['n', 'u', 'l', 'l'] (spelled_plain ['x'] rfl) (.scalar _ .null)

def tidy : Object := ⟨[], [], [idMember, titleMember], [], blank_nil, blank_nil, blank_nil⟩

def scattered : Object :=
  ⟨[], [], [nestedMember, escapedTitle, idMember, nullMember], [], blank_nil, blank_nil, blank_nil⟩

theorem scattered_rewritten : Record.Rewritten SampleSummary.layout.names tidy.entries scattered.entries :=
  .trans _ _ _ (.added "x" ['n', 'u', 'l', 'l'] _ (by decide))
    (.trans _ _ _ (.reordered _ _ (List.reverse_perm _).symm) (.added "x" nestedText _ (by decide)))

end Json

namespace Catalog

open Toml (Members Value)

theorem write_parsed_written (catalog : Catalog) (nonempty : catalog.samples ≠ []) :
    Toml.parse? catalog.write = some catalog.written := by
  obtain ⟨rule, samples⟩ := catalog
  cases samples with
  | nil => exact absurd rfl nonempty
  | cons entry others =>
      have absent : List.lookup "samples" [("artifacts", Toml.tableValue ArtifactRule.layout rule)] = none := rfl
      rw [write_parsed, List.map_cons, List.foldlM_cons,
        Toml.first_element_applied _ _ _ _ absent SampleEntry.layout_faithful, Option.bind_eq_bind, Option.bind_some,
        Toml.further_elements_applied _ _ _ absent SampleEntry.layout_faithful]
      rfl

def pamphlet : Catalog := ⟨⟨"d", "o"⟩, [⟨⟨"a", rfl⟩, "T", "s", "e"⟩]⟩

def scattered : String :=
  "[[samples]]\nexpected_output = \"e\"\nsource_text = \"s\"\ntitle = \"T\"\nid = \"a\"\nids.id = 0\n" ++
  "[artifacts]\nextension = \"o\"\ndirectory = \"d\"\n[notes]\n"

def scatteredMembers : Members :=
  [("samples", .array true [.table .header
      [("expected_output", .text "e"), ("source_text", .text "s"), ("title", .text "T"), ("id", .text "a"),
       ("ids", .table .dotted [("id", .integer 0)])]]),
   ("artifacts", .table .header [("extension", .text "o"), ("directory", .text "d")]),
   ("notes", .table .header [])]

theorem scattered_parsed : Toml.parse? scattered = some scatteredMembers := by cbv

theorem scattered_rewritten : Rewritten pamphlet.written scatteredMembers := by
  have rule : Record.Rewritten ArtifactRule.layout.names [("directory", Value.text "d"), ("extension", .text "o")]
      [("extension", .text "o"), ("directory", .text "d")] := .reordered _ _ (List.reverse_perm _).symm
  have sample : Record.Rewritten SampleEntry.layout.names
      [("id", Value.text "a"), ("title", .text "T"), ("source_text", .text "s"), ("expected_output", .text "e")]
      [("expected_output", .text "e"), ("source_text", .text "s"), ("title", .text "T"), ("id", .text "a"),
       ("ids", .table .dotted [("id", .integer 0)])] :=
    .trans _ _ _ (.added "ids" _ _ (by decide)) (.reordered _ _ (List.reverse_perm _).symm)
  refine .trans _ _ _ (.rule [] _ .header .header _ _ rule)
    (.trans _ _ _ (.sample [_] [] true true [] [] .header .header _ _ sample) ?_)
  exact .keys _ _ (.trans _ _ _ (.added "notes" _ _ (by decide)) (.reordered _ _ (List.reverse_perm _).symm))

end Catalog

theorem rewriting_indifferent_scattered :
    (Json.tidy.text = "\x7b\"id\":\"a\",\"title\":\"T\"\x7d" ∧
      Json.scattered.text =
        "\x7b\"x\":[-1.5e+2,\x7b\"\\ud800\":null\x7d], \"\\u0074itle\"\t:\"T\"\n,\"id\":\"a\",\"x\":null\x7d" ∧
      (Json.document (Json.record SampleSummary.layout) Json.tidy.text).toOption =
        (Json.document (Json.record SampleSummary.layout) Json.scattered.text).toOption) ∧
    Catalog.ofMembers Catalog.scatteredMembers = .ok Catalog.pamphlet ∧
    Registry.ofDocument Catalog.pamphlet.write = Registry.ofDocument Catalog.scattered := by
  obtain ⟨⟨_, summaries, _⟩, _, _, catalogs, registries⟩ := rewriting_indifferent
  have accepted := catalogs.accepted Catalog.pamphlet Catalog.scatteredMembers Catalog.scattered_rewritten
  refine ⟨⟨rfl, rfl, summaries.unchanged Json.tidy Json.scattered (by decide) Json.scattered_rewritten⟩, accepted, ?_⟩
  rcases registries Catalog.pamphlet.write Catalog.scattered _ _
    (Catalog.write_parsed_written Catalog.pamphlet (by decide)) Catalog.scattered_parsed Catalog.scattered_rewritten
    with same | ⟨fault, _, refused, _⟩
  · exact same
  · rw [Registry.catalog_parse_iff, Catalog.read_write] at refused
    cases refused

end Showcase
