import Showcase.Proofs.Table

set_option autoImplicit false

namespace Showcase.Toml

inductive Sound : Value → Prop where
  | text (content : String) : Sound (.text content)
  | integer (n : Int) : Sound (.integer n)
  | float (literal : String) : Sound (.float literal)
  | boolean (b : Bool) : Sound (.boolean b)
  | moment (literal : String) : Sound (.moment literal)
  | array (extensible : Bool) (items : List Value) (sound : ∀ item ∈ items, Sound item) :
      Sound (.array extensible items)
  | table (form : Form) (members : Members) (distinct : Distinct members) (sound : ∀ entry ∈ members, Sound entry.2) :
      Sound (.table form members)

structure SoundMembers (members : Members) : Prop where
  distinct : Distinct members
  sound : ∀ entry ∈ members, Sound entry.2

theorem Sound.items {extensible : Bool} {items : List Value} (sound : Sound (.array extensible items)) :
    ∀ item ∈ items, Sound item := by
  cases sound with
  | array _ _ sound => exact sound

theorem Sound.members {form : Form} {members : Members} (sound : Sound (.table form members)) :
    SoundMembers members := by
  cases sound with
  | table _ _ distinct sound => exact ⟨distinct, sound⟩

namespace SoundMembers

theorem nil : SoundMembers [] := ⟨List.nodup_nil, by simp⟩

theorem table {members : Members} (form : Form) (sound : SoundMembers members) : Sound (.table form members) :=
  .table form members sound.distinct sound.sound

variable {members : Members} (held : SoundMembers members)
include held

theorem lookup {key : String} {value : Value} (found : members.lookup key = some value) : Sound value := by
  obtain ⟨before, after, rfl, _⟩ := List.lookup_eq_some_iff.mp found
  exact held.sound (key, value) (by simp)

theorem append (key : String) (value : Value) (sound : Sound value) :
    ∀ entry ∈ members ++ [(key, value)], Sound entry.2 := by
  intro entry member
  rcases List.mem_append.mp member with inside | last
  · exact held.sound entry inside
  · rw [List.mem_singleton.mp last]
    exact sound

theorem replaced (key : String) (value : Value) (sound : Sound value) :
    ∀ entry ∈ replace key value members, Sound entry.2 := by
  intro entry member
  obtain ⟨⟨name, old⟩, inside, rfl⟩ := List.mem_map.mp member
  by_cases same : name = key
  · simpa [same] using sound
  · simpa [same] using held.sound (name, old) inside

end SoundMembers

theorem last_sound (extensible : Bool) (items : List Value) (form : Form) (inner : Members)
    (sound : Sound (.array extensible items)) (changed : SoundMembers inner) :
    Sound (.array extensible (items.dropLast ++ [.table form inner])) := by
  refine .array _ _ ?_
  intro item member
  rcases List.mem_append.mp member with former | last
  · exact sound.items item (List.dropLast_subset items former)
  · rw [List.mem_singleton.mp last]
    exact changed.table form

theorem insert_sound (key : String) (value : Value) (path : List String) (members after : Members)
    (inserted : insert key value path members = some after) (fresh : Sound value) (held : SoundMembers members) :
    SoundMembers after := by
  refine ⟨insert_distinct key value path members after inserted held.distinct, ?_⟩
  -- By induction on the path; every table on the way keeps its keys apart.
  induction path generalizing members after with
  | nil =>
      rw [insert, insertNew] at inserted
      split at inserted
      · cases inserted
        exact held.append key value fresh
      · cases inserted
  | cons step path ih =>
      have deeper : ∀ inner changed, insert key value path inner = some changed → SoundMembers inner →
          SoundMembers changed := by
        intro inner changed put sound
        exact ⟨insert_distinct key value path inner changed put sound.distinct, ih inner changed put sound⟩
      rw [insert] at inserted
      split at inserted
      · obtain ⟨inner, put, rfl⟩ := Option.map_eq_some_iff.mp inserted
        exact held.append step _ ((deeper [] inner put .nil).table .dotted)
      · rename_i form inner found
        split at inserted
        · obtain ⟨changed, put, rfl⟩ := Option.map_eq_some_iff.mp inserted
          exact held.replaced step _ ((deeper inner changed put (held.lookup found).members).table form)
        · cases inserted
      · rename_i items found
        split at inserted
        · rename_i form inner _ _ last
          obtain ⟨changed, put, rfl⟩ := Option.map_eq_some_iff.mp inserted
          have element := (held.lookup found).items _ (List.mem_of_getLast? last)
          exact held.replaced step _
            (last_sound true items form changed (held.lookup found) (deeper inner changed put element.members))
        · cases inserted
      · cases inserted

def SoundPairs (pairs : List Pair) : Prop := ∀ pair ∈ pairs, Sound pair.value

theorem insert_all_sound (pairs : List Pair) (members after : Members) (inserted : insertAll pairs members = some after)
    (fresh : SoundPairs pairs) (held : SoundMembers members) : SoundMembers after := by
  induction pairs generalizing members with
  | nil =>
      cases inserted
      exact held
  | cons pair others ih =>
      rw [insertAll, List.foldlM_cons] at inserted
      obtain ⟨next, first, rest⟩ := Option.bind_eq_some_iff.mp inserted
      apply ih next rest
      · exact fun other member => fresh other (List.mem_cons_of_mem _ member)
      · exact insert_sound pair.key pair.value pair.path members next first (fresh pair List.mem_cons_self) held

theorem open_table_sound (key : String) (pairs : List Pair) (members after : Members)
    (opened : openTable key pairs members = some after) (fresh : SoundPairs pairs) (held : SoundMembers members) :
    SoundMembers after := by
  refine ⟨open_table_distinct key pairs members after opened held.distinct, ?_⟩
  have filled : ∀ inner, SoundMembers inner → (insertAll pairs inner).bind (fun content =>
      some (members.filter (fun member => member.1 ≠ key) ++ [(key, .table .header content)])) = some after →
      ∀ entry ∈ after, Sound entry.2 := by
    intro inner sound added
    obtain ⟨content, put, same⟩ := Option.bind_eq_some_iff.mp added
    cases same
    intro entry member
    rcases List.mem_append.mp member with former | last
    · exact held.sound entry (List.mem_of_mem_filter former)
    · rw [List.mem_singleton.mp last]
      exact (insert_all_sound pairs inner content put fresh sound).table .header
  unfold openTable at opened
  dsimp only at opened
  split at opened
  · exact filled [] .nil opened
  · rename_i inner found
    exact filled inner (held.lookup found).members opened
  · cases opened

theorem open_element_sound (key : String) (pairs : List Pair) (members after : Members)
    (opened : openElement key pairs members = some after) (fresh : SoundPairs pairs) (held : SoundMembers members) :
    SoundMembers after := by
  refine ⟨open_element_distinct key pairs members after opened held.distinct, ?_⟩
  obtain ⟨content, put, filled⟩ := Option.bind_eq_some_iff.mp opened
  have element : Sound (.table .header content) := (insert_all_sound pairs [] content put fresh .nil).table .header
  dsimp only at filled
  split at filled
  · cases filled
    exact held.append key _ (.array true _ (by simpa using element))
  · rename_i items found
    cases filled
    apply held.replaced key _ (.array true _ ?_)
    intro item member
    rcases List.mem_append.mp member with former | last
    · exact (held.lookup found).items item former
    · rw [List.mem_singleton.mp last]
      exact element
  · cases filled

theorem edit_at_sound (change : Members → Option Members) (path : List String) (members after : Members)
    (kept : ∀ members after, change members = some after → SoundMembers members → SoundMembers after)
    (edited : editAt change path members = some after) (held : SoundMembers members) : SoundMembers after := by
  induction path generalizing members after with
  | nil => exact kept members after edited held
  | cons step path ih =>
      rw [editAt] at edited
      split at edited
      · rename_i free
        obtain ⟨inner, put, rfl⟩ := Option.map_eq_some_iff.mp edited
        exact ⟨append_distinct step _ members held.distinct (lookup_absent step members free),
          held.append step _ ((ih [] inner put .nil).table .implied)⟩
      · rename_i form inner found
        split at edited
        · cases edited
        · obtain ⟨changed, put, rfl⟩ := Option.map_eq_some_iff.mp edited
          exact ⟨replace_distinct step _ members held.distinct,
            held.replaced step _ ((ih inner changed put (held.lookup found).members).table form)⟩
      · rename_i items found
        split at edited
        · rename_i form inner last
          obtain ⟨changed, put, rfl⟩ := Option.map_eq_some_iff.mp edited
          have element := (held.lookup found).items _ (List.mem_of_getLast? last)
          exact ⟨replace_distinct step _ members held.distinct, held.replaced step _
            (last_sound true items form changed (held.lookup found) (ih inner changed put element.members))⟩
        · cases edited
      · cases edited

theorem blocks_sound (blocks : List Block) (members after : Members)
    (applied : blocks.foldlM (fun members block => block.apply members) members = some after)
    (fresh : ∀ block ∈ blocks, SoundPairs block.pairs) (held : SoundMembers members) : SoundMembers after := by
  induction blocks generalizing members with
  | nil =>
      cases applied
      exact held
  | cons block others ih =>
      rw [List.foldlM_cons] at applied
      obtain ⟨next, first, rest⟩ := Option.bind_eq_some_iff.mp applied
      apply ih next rest (fun other member => fresh other (List.mem_cons_of_mem _ member))
      apply edit_at_sound _ block.path members next _ first held
      have pairs := fresh block List.mem_cons_self
      cases block.opening with
      | table => exact fun members after opened => open_table_sound block.key block.pairs members after opened pairs
      | element => exact fun members after opened => open_element_sound block.key block.pairs members after opened pairs

theorem moment_sound (text : List Char) (value : Value) (rest : List Char)
    (read : moment? text = some (value, rest)) : Sound value := by
  obtain ⟨_, _, same⟩ := Option.bind_eq_some_iff.mp read
  cases same
  exact .moment _

theorem float_sound (text : List Char) (value : Value) (rest : List Char)
    (read : float? text = some (value, rest)) : Sound value := by
  obtain ⟨⟨_, _⟩, _, scaled⟩ := Option.bind_eq_some_iff.mp read
  obtain ⟨⟨_, _, _⟩, _, guarded⟩ := Option.bind_eq_some_iff.mp scaled
  obtain ⟨_, _, same⟩ := Option.bind_eq_some_iff.mp guarded
  cases same
  exact .float _

theorem special_sound (text : List Char) (value : Value) (rest : List Char)
    (read : special? text = some (value, rest)) : Sound value := by
  unfold special? at read
  split at read
  · cases read
    exact .float _
  · cases read
    exact .float _
  · cases read

theorem integer_in_sound (base : Nat) (text : List Char) (value : Value) (rest : List Char)
    (read : integerIn? base text = some (value, rest)) : Sound value := by
  obtain ⟨⟨_, _⟩, _, numbered⟩ := Option.bind_eq_some_iff.mp read
  obtain ⟨_, _, guarded⟩ := Option.bind_eq_some_iff.mp numbered
  obtain ⟨_, _, same⟩ := Option.bind_eq_some_iff.mp guarded
  cases same
  exact .integer _

theorem integer_sound (text : List Char) (value : Value) (rest : List Char)
    (read : integer? text = some (value, rest)) : Sound value := by
  unfold integer? at read
  split at read
  · exact integer_in_sound 16 _ value rest read
  · exact integer_in_sound 8 _ value rest read
  · exact integer_in_sound 2 _ value rest read
  · obtain ⟨⟨_, _⟩, _, guarded⟩ := Option.bind_eq_some_iff.mp read
    obtain ⟨_, _, same⟩ := Option.bind_eq_some_iff.mp guarded
    cases same
    exact .integer _

theorem number_sound (text : List Char) (value : Value) (rest : List Char)
    (read : number? text = some (value, rest)) : Sound value := by
  rw [number?, Option.or_eq_some_iff, Option.or_eq_some_iff, Option.or_eq_some_iff] at read
  rcases read with moment | ⟨_, float | ⟨_, special | ⟨_, integer⟩⟩⟩
  · exact moment_sound text value rest moment
  · exact float_sound text value rest float
  · exact special_sound text value rest special
  · exact integer_sound text value rest integer

section Reading

variable (read : ReadValue) (sound : ∀ text value rest, read text = some (value, rest) → Sound value)
include sound

theorem pair_sound (text : List Char) (pair : Pair) (rest : List Char) (parsed : pair? read text = some (pair, rest)) :
    Sound pair.value := by
  obtain ⟨⟨⟨_, _⟩, _⟩, _, marked⟩ := Option.bind_eq_some_iff.mp parsed
  obtain ⟨_, _, valued⟩ := Option.bind_eq_some_iff.mp marked
  obtain ⟨⟨value, behind⟩, held, same⟩ := Option.bind_eq_some_iff.mp valued
  cases same
  exact sound _ value _ held

theorem elements_sound (rounds : Nat) (text : List Char) (items : List Value) (rest : List Char)
    (parsed : elements? read rounds text = some (items, rest)) : ∀ item ∈ items, Sound item := by
  induction rounds generalizing text items with
  | zero => cases parsed
  | succ rounds ih =>
      rw [elements?] at parsed
      obtain ⟨start, _, opened⟩ := Option.bind_eq_some_iff.mp parsed
      split at opened
      · cases opened
        simp
      · obtain ⟨⟨item, behind⟩, held, followed⟩ := Option.bind_eq_some_iff.mp opened
        obtain ⟨after, _, closed⟩ := Option.bind_eq_some_iff.mp followed
        split at closed
        · cases closed
          simpa using sound _ item _ held
        · obtain ⟨⟨others, left⟩, more, same⟩ := Option.bind_eq_some_iff.mp closed
          cases same
          exact List.forall_mem_cons.mpr ⟨sound _ item _ held, ih _ others more⟩
        · cases closed

theorem inline_pairs_sound (rounds : Nat) (text : List Char) (pairs : List Pair) (rest : List Char)
    (parsed : inlinePairs? read rounds text = some (pairs, rest)) : SoundPairs pairs := by
  induction rounds generalizing text pairs with
  | zero => cases parsed
  | succ rounds ih =>
      rw [inlinePairs?] at parsed
      obtain ⟨⟨pair, behind⟩, held, followed⟩ := Option.bind_eq_some_iff.mp parsed
      have first := pair_sound read sound text pair behind held
      dsimp only at followed
      split at followed
      · cases followed
        simpa [SoundPairs] using first
      · obtain ⟨⟨others, left⟩, more, same⟩ := Option.bind_eq_some_iff.mp followed
        cases same
        exact List.forall_mem_cons.mpr ⟨first, ih _ others more⟩
      · cases followed

theorem inline_table_sound (text : List Char) (value : Value) (rest : List Char)
    (parsed : inlineTable? read text = some (value, rest)) : Sound value := by
  unfold inlineTable? at parsed
  split at parsed
  · cases parsed
    exact SoundMembers.nil.table .inline
  · obtain ⟨⟨pairs, behind⟩, held, filled⟩ := Option.bind_eq_some_iff.mp parsed
    obtain ⟨members, put, same⟩ := Option.bind_eq_some_iff.mp filled
    cases same
    exact (insert_all_sound pairs [] members put (inline_pairs_sound read sound _ text pairs rest held) .nil).table .inline

end Reading

theorem value_sound (depth : Nat) (text : List Char) (value : Value) (rest : List Char)
    (parsed : value? depth text = some (value, rest)) : Sound value := by
  induction depth using Nat.strongRecOn generalizing text value rest with
  | ind depth ih =>
      unfold value? at parsed
      split at parsed
      · obtain ⟨_, _, same⟩ := Option.map_eq_some_iff.mp parsed
        cases same
        exact .text _
      · obtain ⟨_, _, same⟩ := Option.map_eq_some_iff.mp parsed
        cases same
        exact .text _
      · split at parsed
        · cases parsed
        · rename_i depth
          obtain ⟨⟨items, behind⟩, held, same⟩ := Option.map_eq_some_iff.mp parsed
          cases same
          exact .array false items (elements_sound (value? depth) (ih depth (Nat.lt_succ_self _)) _ _ items rest held)
      · split at parsed
        · cases parsed
        · rename_i depth
          exact inline_table_sound (value? depth) (ih depth (Nat.lt_succ_self _)) _ value rest parsed
      · cases parsed
        exact .boolean true
      · cases parsed
        exact .boolean false
      · exact number_sound _ value rest parsed

def SoundLines (lines : List Line) : Prop := ∀ pair, .pair pair ∈ lines → Sound pair.value

theorem line_sound (text : List Char) (pair : Pair) (rest : List Char) (parsed : line? text = some (.pair pair, rest)) :
    Sound pair.value := by
  unfold line? at parsed
  split at parsed
  · simp [Option.bind_eq_some_iff] at parsed
  · simp [Option.bind_eq_some_iff] at parsed
  · obtain ⟨⟨held, behind⟩, read, same⟩ := Option.map_eq_some_iff.mp parsed
    cases same
    exact pair_sound (value? nestingLimit) (value_sound nestingLimit) _ pair rest read

theorem lines_sound (rounds : Nat) (text : List Char) (lines : List Line) (parsed : lines? rounds text = some lines) :
    SoundLines lines := by
  induction rounds generalizing text lines with
  | zero =>
      rw [lines?] at parsed
      split at parsed
      · cases parsed
        simp [SoundLines]
      · cases parsed
  | succ rounds ih =>
      rw [lines?] at parsed
      split at parsed
      · cases parsed
        simp [SoundLines]
      · split at parsed
        · obtain ⟨⟨line, behind⟩, read, ended⟩ := Option.bind_eq_some_iff.mp parsed
          obtain ⟨next, _, followed⟩ := Option.bind_eq_some_iff.mp ended
          obtain ⟨others, more, same⟩ := Option.bind_eq_some_iff.mp followed
          cases same
          intro pair member
          rcases List.mem_cons.mp member with first | later
          · subst first
            exact line_sound _ pair behind read
          · exact ih next others more pair later
        · obtain ⟨next, _, more⟩ := Option.bind_eq_some_iff.mp parsed
          exact ih next lines more

theorem blocks_pairs_sound (lines : List Line) (sound : SoundLines lines) :
    SoundPairs (blocks lines).1 ∧ ∀ block ∈ (blocks lines).2, SoundPairs block.pairs := by
  induction lines with
  | nil => simp [blocks, SoundPairs]
  | cons line others ih =>
      obtain ⟨pairs, rest⟩ := ih fun pair member => sound pair (List.mem_cons_of_mem _ member)
      cases line with
      | pair pair => exact ⟨List.forall_mem_cons.mpr ⟨sound pair List.mem_cons_self, pairs⟩, rest⟩
      | header opening path key => exact ⟨by simp [blocks, SoundPairs], List.forall_mem_cons.mpr ⟨pairs, rest⟩⟩

theorem parse_sound (document : String) (members : Members) (parsed : parse? document = some members) :
    SoundMembers members := by
  obtain ⟨lines, read, assembled⟩ := Option.bind_eq_some_iff.mp parsed
  obtain ⟨first, inserted, applied⟩ := Option.bind_eq_some_iff.mp assembled
  obtain ⟨pairs, blocks⟩ := blocks_pairs_sound lines (lines_sound _ _ lines read)
  exact blocks_sound _ first members applied blocks (insert_all_sound _ [] first inserted pairs .nil)

end Showcase.Toml
