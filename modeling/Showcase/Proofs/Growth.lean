import Showcase.FileTree.Basic

set_option autoImplicit false

namespace Showcase.FileTree

theorem lookup_replaced (entries : Entries) (location place : Location) (node : Node) :
    (entries.map fun (held, old) => if held = location then (held, node) else (held, old)).lookup place =
      if place = location then (entries.lookup location).map (fun _ => node) else entries.lookup place := by
  induction entries with
  | nil => simp
  | cons entry rest ih =>
      obtain ⟨held, old⟩ := entry
      by_cases here : held = location
      · subst here
        by_cases same : place = held
        · simp [same]
        · have apart : (place == held) = false := by simpa using same
          simpa [List.lookup_cons, apart, same] using ih
      · by_cases same : place = held
        · subst same
          simp [here]
        · have apart : (place == held) = false := by simpa using same
          have away : (location == held) = false := by simpa using Ne.symm here
          simpa [List.lookup_cons, apart, away, here] using ih

theorem lookup_put (entries : Entries) (location place : Location) (node : Node) :
    (entries.put location node).lookup place = if place = location then some node else entries.lookup place := by
  unfold Entries.put
  cases held : entries.lookup location with
  | some old =>
      rw [Option.isSome_some, if_pos rfl, lookup_replaced, held]
      rfl
  | none =>
      rw [Option.isSome_none, if_neg Bool.false_ne_true, List.lookup_append]
      by_cases same : place = location
      · simp [same, held]
      · have apart : (place == location) = false := by simpa using same
        simp [same, apart, List.lookup_cons]

theorem get_put (tree : FileTree) (location place : Location) (node : Node)
    (room : tree.hasRoom location node = true) :
    (tree.put location node).get? place = if place = location then some node else tree.get? place := by
  have inner : location ≠ [] := by
    rintro rfl
    cases room
  rw [put, dif_pos room]
  unfold get?
  by_cases root : place = []
  · rw [if_pos root, if_pos root, root, if_neg (Ne.symm inner)]
  · rw [if_neg root, if_neg root, lookup_put]

theorem put_full (tree : FileTree) (location : Location) (node : Node) (full : tree.hasRoom location node = false) :
    tree.put location node = tree := by
  rw [put, dif_neg (by simp [full])]

theorem get_put_ne (tree : FileTree) (location place : Location) (node : Node) (other : place ≠ location) :
    (tree.put location node).get? place = tree.get? place := by
  cases room : tree.hasRoom location node with
  | false => rw [put_full tree location node room]
  | true => rw [get_put tree location place node room, if_neg other]

theorem put_current (tree : FileTree) (location : Location) (node : Node) :
    (tree.put location node).current = tree.current := by
  unfold put
  split <;> rfl

theorem entry_held (tree : FileTree) (place : Location) (node : Node) (member : (place, node) ∈ tree.entries) :
    tree.get? place = some node := by
  have inner : place ≠ [] := by
    intro root
    rw [root] at member
    exact tree.attached _ member
  rw [get?, if_neg inner]
  exact lookup_of_mem tree.distinct member

theorem get_root (tree : FileTree) : tree.get? [] = some .directory := rfl

theorem parent_directory (tree : FileTree) (name : Name) (parent : Location) (node : Node)
    (held : tree.get? (name :: parent) = some node) : tree.get? parent = some .directory := by
  have found : tree.entries.lookup (name :: parent) = some node := by simpa [get?] using held
  rcases tree.attached _ (mem_of_lookup found) with root | above
  · rw [root, get_root]
  · by_cases root : parent = []
    · rw [root, get_root]
    · rw [get?, if_neg root]
      exact lookup_of_mem tree.distinct above

theorem ancestor_directory (tree : FileTree) (names : List Name) (name : Name) (base : Location) (node : Node)
    (held : tree.get? (names ++ name :: base) = some node) : tree.get? base = some .directory := by
  induction names generalizing node with
  | nil => exact parent_directory tree name base node held
  | cons first rest ih => exact ih .directory (parent_directory tree first _ node held)

theorem child_iff (tree : FileTree) (location : Location) (name : Name) (node : Node) :
    (name, node) ∈ tree.children location ↔ tree.get? (name :: location) = some node := by
  rw [get?, if_neg (List.cons_ne_nil _ _)]
  constructor
  · intro member
    obtain ⟨⟨place, held⟩, inside, hit⟩ := List.mem_filterMap.mp member
    cases place with
    | nil => cases hit
    | cons first parent =>
        by_cases here : parent = location
        · subst here
          simp only [if_true, Option.some.injEq, Prod.mk.injEq] at hit
          obtain ⟨rfl, rfl⟩ := hit
          exact lookup_of_mem tree.distinct inside
        · simp [here] at hit
  · intro found
    exact List.mem_filterMap.mpr ⟨(name :: location, node), mem_of_lookup found, by simp⟩

structure Grows (written : Location → Prop) (before after : FileTree) : Prop where
  current : after.current = before.current
  directories : ∀ place, before.get? place = some .directory → after.get? place = some .directory
  links : ∀ place target, after.get? place = some (.link target) ↔ before.get? place = some (.link target)
  files : ∀ place, ¬ written place → ∀ file,
    after.get? place = some (.file file) ↔ before.get? place = some (.file file)
  sealed : ∀ place content, before.get? place = some (.file ⟨content, .readOnly⟩) →
    after.get? place = some (.file ⟨content, .readOnly⟩)

def Untouched : Location → Prop := fun _ => False

theorem grows_refl (written : Location → Prop) (tree : FileTree) : Grows written tree tree :=
  ⟨rfl, fun _ held => held, fun _ _ => Iff.rfl, fun _ _ _ => Iff.rfl, fun _ _ held => held⟩

theorem grows_trans (written : Location → Prop) (before middle after : FileTree) (first : Grows written before middle)
    (last : Grows written middle after) : Grows written before after :=
  ⟨last.current.trans first.current, fun place held => last.directories place (first.directories place held),
    fun place target => (last.links place target).trans (first.links place target),
    fun place free file => (last.files place free file).trans (first.files place free file),
    fun place content held => last.sealed place content (first.sealed place content held)⟩

theorem grows_mono (few many : Location → Prop) (before after : FileTree) (more : ∀ place, few place → many place)
    (grows : Grows few before after) : Grows many before after :=
  ⟨grows.current, grows.directories, grows.links,
    fun place free => grows.files place (fun member => free (more place member)), grows.sealed⟩

theorem grows_untouched (written : Location → Prop) (before after : FileTree) (grows : Grows Untouched before after) :
    Grows written before after :=
  grows_mono Untouched written before after (fun _ impossible => impossible.elim) grows

theorem put_directory_grows (tree : FileTree) (location : Location) (vacant : tree.get? location = none) :
    Grows Untouched tree (tree.put location .directory) := by
  cases room : tree.hasRoom location .directory with
  | false =>
      rw [put_full tree location .directory room]
      exact grows_refl Untouched tree
  | true =>
      have get := fun place => get_put tree location place .directory room
      have elsewhere : ∀ place node, tree.get? place = some node → place ≠ location := by
        rintro place node held rfl
        rw [vacant] at held
        cases held
      have kept : ∀ place node, tree.get? place = some node → (tree.put location .directory).get? place = some node := by
        intro place node held
        rw [get, if_neg (elsewhere place node held), held]
      refine ⟨put_current tree location .directory, fun place => kept place _, ?_, ?_, fun place _ => kept place _⟩
      · intro place target
        by_cases here : place = location
        · simp [get, here, vacant]
        · rw [get, if_neg here]
      · intro place _ file
        by_cases here : place = location
        · simp [get, here, vacant]
        · rw [get, if_neg here]

def Replaceable (tree : FileTree) (location : Location) : Prop :=
  tree.get? location = none ∨ ∃ content, tree.get? location = some (.file ⟨content, .writable⟩)

/-- No read-only file stands at the place. -/
def Unsealed (tree : FileTree) (location : Location) : Prop :=
  ∀ content, tree.get? location ≠ some (.file ⟨content, .readOnly⟩)

theorem replaceable_unsealed (tree : FileTree) (location : Location) (replaceable : Replaceable tree location) :
    Unsealed tree location := by
  intro content held
  rcases replaceable with vacant | ⟨old, found⟩
  · rw [vacant] at held
    cases held
  · rw [found] at held
    cases held

theorem unsealed_before (written : Location → Prop) (before after : FileTree) (grows : Grows written before after)
    (location : Location) (unsealed : Unsealed after location) : Unsealed before location :=
  fun content held => unsealed content (grows.sealed location content held)

theorem put_file_grows (tree : FileTree) (location : Location) (file : File) (replaceable : Replaceable tree location) :
    Grows (· = location) tree (tree.put location (.file file)) := by
  cases room : tree.hasRoom location (.file file) with
  | false =>
      rw [put_full tree location _ room]
      exact grows_refl _ tree
  | true =>
      have get := fun place => get_put tree location place (.file file) room
      have kept : ∀ place node, tree.get? place = some node → (∀ content, node ≠ .file ⟨content, .writable⟩) →
          (tree.put location (.file file)).get? place = some node := by
        intro place node held other
        have away : place ≠ location := by
          rintro rfl
          rcases replaceable with vacant | ⟨content, old⟩
          · rw [vacant] at held
            cases held
          · exact other content (Option.some.inj (held.symm.trans old))
        rw [get, if_neg away, held]
      refine ⟨put_current tree location _, fun place held => kept place _ held (fun _ same => by cases same), ?_, ?_,
        fun place content held => kept place _ held (fun _ same => by cases same)⟩
      · intro place target
        refine ⟨fun held => ?_, fun held => kept place _ held (fun _ same => by cases same)⟩
        by_cases here : place = location
        · rw [get, if_pos here] at held
          cases held
        · rwa [get, if_neg here] at held
      · intro place away other
        rw [get, if_neg away]

end Showcase.FileTree
