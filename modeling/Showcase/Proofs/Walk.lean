import Showcase.FileTree.Operations
import Showcase.Proofs.Growth
import Showcase.Proofs.Path

set_option autoImplicit false

namespace Showcase.FileTree

def LinkFree (tree : FileTree) : Prop := ∀ place target, tree.get? place ≠ some (.link target)

theorem held_entry (tree : FileTree) (place : Location) (node : Node) (other : node ≠ .directory)
    (held : tree.get? place = some node) : (place, node) ∈ tree.entries := by
  unfold get? at held
  split at held
  · exact absurd (Option.some.inj held).symm other
  · exact mem_of_lookup held

theorem grows_link_free (written : Location → Prop) (before after : FileTree) (grows : Grows written before after)
    (free : LinkFree before) : LinkFree after :=
  fun place target held => free place target ((grows.links place target).mp held)

def advance (location : Location) : Step → Location
  | .stay => location
  | .up => location.tail
  | .name name => name :: location

/-- Where steps lead if nothing is in the way. -/
def place (location : Location) (steps : List Step) : Location := steps.foldl advance location

theorem place_append (location : Location) (first last : List Step) :
    place location (first ++ last) = place (place location first) last := List.foldl_append

theorem place_names (location : Location) (names : List Name) :
    place location (names.map Step.name) = names.reverse ++ location := by
  induction names generalizing location with
  | nil => rfl
  | cons name rest ih =>
      rw [List.map_cons, place, List.foldl_cons, List.reverse_cons, List.append_assoc]
      exact ih (name :: location)

def Spot.location : Spot → Location
  | .found location => location
  | .missing parent name _ => name :: parent

section Step

variable (tree : FileTree) (follow : Bool) (links : Nat) (location : Location) (rest : List Step) (slash : Bool)

theorem walk_stay (directory : tree.get? location = some .directory) :
    tree.walk follow links location (.stay :: rest) slash = tree.walk follow links location rest slash := by
  rw [walk_eq, stretch]
  simp [directory]

theorem walk_up (directory : tree.get? location = some .directory) :
    tree.walk follow links location (.up :: rest) slash = tree.walk follow links location.tail rest slash := by
  rw [walk_eq, stretch]
  simp [directory]

theorem walk_directory (name : Name) (short : name.text.utf8ByteSize ≤ nameLimit)
    (directory : tree.get? location = some .directory) (held : tree.get? (name :: location) = some .directory) :
    tree.walk follow links location (.name name :: rest) slash =
      tree.walk follow links (name :: location) rest slash := by
  rw [walk_eq, stretch]
  simp [directory, held, Nat.not_lt.mpr short]

theorem walk_file (name : Name) (file : File) (short : name.text.utf8ByteSize ≤ nameLimit)
    (directory : tree.get? location = some .directory) (held : tree.get? (name :: location) = some (.file file)) :
    tree.walk follow links location [.name name] false = .ok (.found (name :: location)) := by
  rw [walk_eq, stretch]
  simp [directory, held, Nat.not_lt.mpr short]

theorem walk_missing (name : Name) (short : name.text.utf8ByteSize ≤ nameLimit)
    (directory : tree.get? location = some .directory) (vacant : tree.get? (name :: location) = none) :
    tree.walk follow links location [.name name] slash = .ok (.missing location name slash) := by
  rw [walk_eq, stretch]
  simp [directory, vacant, Nat.not_lt.mpr short]

theorem walk_link (name : Name) (target : String) (short : name.text.utf8ByteSize ≤ nameLimit)
    (directory : tree.get? location = some .directory) (held : tree.get? (name :: location) = some (.link target)) :
    tree.walk true (links + 1) location (.name name :: rest) slash =
      tree.walk true links (if (Route.ofText target).absolute then [] else location) ((Route.ofText target).steps ++ rest)
        (slash || (rest.isEmpty && (Route.ofText target).slash)) := by
  rw [walk_eq, stretch]
  simp [directory, held, Nat.not_lt.mpr short, onward]

theorem walk_first (step : Step) (spot : Spot)
    (walked : tree.walk follow links location (step :: rest) slash = .ok spot) :
    tree.get? location = some .directory ∧
      ((step = .stay ∨ step = .up) ∧ tree.walk follow links (advance location step) rest slash = .ok spot ∨
      ∃ name, step = .name name ∧ name.text.utf8ByteSize ≤ nameLimit ∧
        (tree.get? (name :: location) = some .directory ∧
            tree.walk follow links (name :: location) rest slash = .ok spot ∨
          (∃ file, tree.get? (name :: location) = some (.file file)) ∧ rest = [] ∧ slash = false ∧
            spot = .found (name :: location) ∨
          tree.get? (name :: location) = none ∧ rest = [] ∧ spot = .missing location name slash ∨
          ∃ target, tree.get? (name :: location) = some (.link target) ∧
            (follow = false ∧ spot = .found (name :: location) ∨
              ∃ left, links = left + 1 ∧
                tree.walk follow left (if (Route.ofText target).absolute then [] else location)
                  ((Route.ofText target).steps ++ rest) (slash || (rest.isEmpty && (Route.ofText target).slash)) =
                    .ok spot))) := by
  by_cases directory : tree.get? location = some .directory
  · refine ⟨directory, ?_⟩
    cases step with
    | stay =>
        rw [walk_stay tree follow links location rest slash directory] at walked
        exact .inl ⟨.inl rfl, walked⟩
    | up =>
        rw [walk_up tree follow links location rest slash directory] at walked
        exact .inl ⟨.inr rfl, walked⟩
    | name name =>
        right
        by_cases long : nameLimit < name.text.utf8ByteSize
        · rw [walk_eq, stretch] at walked
          simp [directory, long] at walked
        · refine ⟨name, rfl, Nat.not_lt.mp long, ?_⟩
          cases held : tree.get? (name :: location) with
          | none =>
              rw [walk_eq, stretch] at walked
              by_cases last : rest = []
              · simp [directory, long, held, last] at walked
                exact .inr (.inr (.inl ⟨rfl, last, walked.symm⟩))
              · simp [directory, long, held, last] at walked
          | some node =>
              cases node with
              | link target =>
                  refine .inr (.inr (.inr ⟨target, rfl, ?_⟩))
                  rw [walk_eq, stretch] at walked
                  by_cases kept : rest = [] ∧ follow = false ∧ slash = false
                  · simp [directory, long, held, kept] at walked
                    exact .inl ⟨kept.2.1, walked.symm⟩
                  · simp only [directory, long, held, kept, ne_eq, not_true, if_false, Bool.not_eq_true'] at walked
                    cases links with
                    | zero => cases walked
                    | succ left => exact .inr ⟨left, rfl, walked⟩
              | directory =>
                  rw [walk_directory tree follow links location rest slash name (Nat.not_lt.mp long) directory held]
                    at walked
                  exact .inl ⟨rfl, walked⟩
              | file file =>
                  rw [walk_eq, stretch] at walked
                  by_cases last : rest = [] ∧ slash = false
                  · simp [directory, long, held, last] at walked
                    exact .inr (.inl ⟨⟨file, rfl⟩, last.1, last.2, walked.symm⟩)
                  · simp [directory, long, held, last] at walked
  · rw [walk_eq, stretch.eq_def] at walked
    simp [directory] at walked

theorem walk_cases (free : LinkFree tree) (step : Step) (spot : Spot)
    (walked : tree.walk follow links location (step :: rest) slash = .ok spot) :
    tree.get? location = some .directory ∧
      ((step = .stay ∨ step = .up) ∧ tree.walk follow links (advance location step) rest slash = .ok spot ∨
      ∃ name, step = .name name ∧ name.text.utf8ByteSize ≤ nameLimit ∧
        (tree.get? (name :: location) = some .directory ∧
            tree.walk follow links (name :: location) rest slash = .ok spot ∨
          (∃ file, tree.get? (name :: location) = some (.file file)) ∧ rest = [] ∧ slash = false ∧
            spot = .found (name :: location) ∨
          tree.get? (name :: location) = none ∧ rest = [] ∧ spot = .missing location name slash)) := by
  obtain ⟨directory, moved | ⟨name, same, short, inside | file | vacant | ⟨target, held, _⟩⟩⟩ :=
    walk_first tree follow links location rest slash step spot walked
  · exact ⟨directory, .inl moved⟩
  · exact ⟨directory, .inr ⟨name, same, short, .inl inside⟩⟩
  · exact ⟨directory, .inr ⟨name, same, short, .inr (.inl file)⟩⟩
  · exact ⟨directory, .inr ⟨name, same, short, .inr (.inr vacant)⟩⟩
  · exact absurd held (free _ target)

end Step

theorem walk_place (tree : FileTree) (free : LinkFree tree) (follow : Bool) (links : Nat) (location : Location)
    (steps : List Step) (slash : Bool) (spot : Spot)
    (walked : tree.walk follow links location steps slash = .ok spot) : spot.location = place location steps := by
  induction steps generalizing location with
  | nil =>
      rw [walk_nil] at walked
      rw [← Except.ok.inj walked]
      rfl
  | cons step rest ih =>
      obtain ⟨_, moved | ⟨name, rfl, _, inside | file | vacant⟩⟩ :=
        walk_cases tree follow links location rest slash free step spot walked
      · exact ih (advance location step) moved.2
      · exact ih (name :: location) inside.2
      · obtain ⟨_, rfl, _, rfl⟩ := file
        rfl
      · obtain ⟨_, rfl, rfl⟩ := vacant
        rfl

theorem walk_short (tree : FileTree) (free : LinkFree tree) (follow : Bool) (links : Nat) (location : Location)
    (steps : List Step) (slash : Bool) (spot : Spot) (walked : tree.walk follow links location steps slash = .ok spot)
    (name : Name) (member : .name name ∈ steps) : name.text.utf8ByteSize ≤ nameLimit := by
  induction steps generalizing location with
  | nil => cases member
  | cons step rest ih =>
      obtain ⟨_, moved | ⟨first, rfl, short, walked⟩⟩ :=
        walk_cases tree follow links location rest slash free step spot walked
      · rcases List.mem_cons.mp member with rfl | later
        · rcases moved.1 with same | same <;> cases same
        · exact ih (advance location step) moved.2 later
      · rcases List.mem_cons.mp member with same | later
        · cases same
          exact short
        · rcases walked with inside | file | vacant
          · exact ih (first :: location) inside.2 later
          · rw [file.2.1] at later
            cases later
          · rw [vacant.2.1] at later
            cases later

theorem walk_vacant (tree : FileTree) (free : LinkFree tree) (follow : Bool) (links : Nat) (location : Location)
    (steps : List Step) (slash flag : Bool) (parent : Location) (name : Name)
    (walked : tree.walk follow links location steps slash = .ok (.missing parent name flag)) :
    flag = slash ∧ tree.get? parent = some .directory ∧ tree.get? (name :: parent) = none := by
  induction steps generalizing location with
  | nil =>
      rw [walk_nil] at walked
      cases Except.ok.inj walked
  | cons step rest ih =>
      obtain ⟨directory, moved | ⟨first, rfl, _, inside | file | vacant⟩⟩ :=
        walk_cases tree follow links location rest slash free step _ walked
      · exact ih (advance location step) moved.2
      · exact ih (first :: location) inside.2
      · cases file.2.2.2
      · obtain ⟨absent, _, same⟩ := vacant
        cases same
        exact ⟨rfl, directory, absent⟩

theorem walk_extends (before after : FileTree) (free : LinkFree before)
    (directories : ∀ place, before.get? place = some .directory → after.get? place = some .directory)
    (follow : Bool) (links : Nat) (location : Location) (steps : List Step) (slash : Bool) (spot : Spot)
    (walked : before.walk follow links location steps slash = .ok spot)
    (flat : ∀ parent name, spot ≠ .missing parent name true)
    (held : after.get? spot.location = some .directory ∨ ∃ file, after.get? spot.location = some (.file file)) :
    after.walk follow links location steps slash = .ok (.found spot.location) := by
  induction steps generalizing location with
  | nil =>
      rw [walk_nil] at walked ⊢
      rw [← Except.ok.inj walked]
      rfl
  | cons step rest ih =>
      obtain ⟨directory, moved | ⟨name, rfl, short, inside | file | vacant⟩⟩ :=
        walk_cases before follow links location rest slash free step spot walked
      · have later := ih (advance location step) moved.2
        rcases moved.1 with rfl | rfl
        · rw [walk_stay after follow links location rest slash (directories location directory)]
          exact later
        · rw [walk_up after follow links location rest slash (directories location directory)]
          exact later
      · rw [walk_directory after follow links location rest slash name short (directories location directory)
          (directories _ inside.1)]
        exact ih (name :: location) inside.2
      · obtain ⟨_, rfl, rfl, rfl⟩ := file
        rcases held with here | ⟨other, here⟩
        · rw [walk_directory after follow links location [] false name short (directories location directory) here, walk_nil]
          rfl
        · exact walk_file after follow links location name other short (directories location directory) here
      · obtain ⟨_, rfl, rfl⟩ := vacant
        rcases held with here | ⟨other, here⟩
        · rw [walk_directory after follow links location [] slash name short (directories location directory) here, walk_nil]
          rfl
        · cases slash with
          | true => exact absurd rfl (flat location name)
          | false => exact walk_file after follow links location name other short (directories location directory) here

theorem walk_append (tree : FileTree) (free : LinkFree tree) (follow : Bool) (links : Nat) (location middle : Location)
    (first rest : List Step) (slash flag : Bool)
    (walked : tree.walk follow links location first slash = .ok (.found middle))
    (directory : tree.get? middle = some .directory) :
    tree.walk follow links location (first ++ rest) flag = tree.walk follow links middle rest flag := by
  induction first generalizing location with
  | nil =>
      rw [walk_nil] at walked
      cases Except.ok.inj walked
      rfl
  | cons step others ih =>
      obtain ⟨here, moved | ⟨name, rfl, short, inside | file | vacant⟩⟩ :=
        walk_cases tree follow links location others slash free step _ walked
      · rw [List.cons_append, ← ih (advance location step) moved.2]
        rcases moved.1 with rfl | rfl
        · exact walk_stay tree follow links location _ flag here
        · exact walk_up tree follow links location _ flag here
      · rw [List.cons_append, ← ih (name :: location) inside.2]
        exact walk_directory tree follow links location _ flag name short here inside.1
      · obtain ⟨⟨content, held⟩, _, _, same⟩ := file
        cases same
        rw [directory] at held
        cases held
      · cases vacant.2.2

theorem walk_names (tree : FileTree) (follow : Bool) (links : Nat) (base : Location) (names : List Name) (node : Node)
    (plain : ∀ target, node ≠ .link target) (short : ∀ name ∈ names, name.text.utf8ByteSize ≤ nameLimit)
    (held : tree.get? (names.reverse ++ base) = some node) :
    tree.walk follow links base (names.map Step.name) false = .ok (.found (names.reverse ++ base)) := by
  induction names generalizing base with
  | nil =>
      rw [List.map_nil, walk_nil]
      rfl
  | cons name rest ih =>
      have shorter := short name List.mem_cons_self
      rw [List.reverse_cons, List.append_assoc, List.singleton_append] at held ⊢
      have directory := ancestor_directory tree rest.reverse name base _ held
      have deeper : tree.get? (name :: base) = some .directory →
          tree.walk follow links base ((name :: rest).map Step.name) false =
            .ok (.found (rest.reverse ++ name :: base)) := by
        intro inside
        rw [List.map_cons, walk_directory tree follow links base _ false name shorter directory inside]
        exact ih (name :: base) (fun other member => short other (List.mem_cons_of_mem name member)) held
      cases rest with
      | nil =>
          cases node with
          | link target => exact absurd rfl (plain target)
          | directory => exact deeper held
          | file file => exact walk_file tree follow links base name file shorter directory held
      | cons next others =>
          rw [List.reverse_cons, List.append_assoc, List.singleton_append] at held
          exact deeper (ancestor_directory tree others.reverse next (name :: base) _ held)

end Showcase.FileTree
