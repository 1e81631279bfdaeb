import Showcase.FileTree.Entries

namespace Showcase

inductive IoFault where
  | notFound
  | alreadyExists
  | isADirectory
  | notADirectory
  | invalidData
  | invalidInput
  | invalidFilename
  | filesystemLoop
  | permissionDenied
deriving DecidableEq

def IoFault.message : IoFault → String
  | notFound => "no such file or directory"
  | alreadyExists => "file exists"
  | isADirectory => "is a directory"
  | notADirectory => "not a directory"
  | invalidData => "file content is not valid UTF-8"
  | invalidInput => "path holds a zero character"
  | invalidFilename => "file name too long"
  | filesystemLoop => "too many levels of symbolic links"
  | permissionDenied => "permission denied"

structure FileTree where
  entries : FileTree.Entries
  current : FileTree.Location
  distinct : (entries.map Prod.fst).Nodup
  attached : ∀ entry ∈ entries, FileTree.Attached entries entry.1

namespace FileTree

def get? (tree : FileTree) (location : Location) : Option Node :=
  if location = [] then some .directory else tree.entries.lookup location

/-- Whether a node has room at a location: in a directory, and not in the place of a directory that may hold something. -/
def hasRoom (tree : FileTree) (location : Location) (node : Node) : Bool :=
  match location with
  | [] => false
  | _ :: parent =>
    tree.get? parent == some .directory && (node == .directory || tree.get? location != some .directory)

theorem directory_attached {tree : FileTree} {parent : Location} (directory : tree.get? parent = some .directory) :
    parent = [] ∨ (parent, .directory) ∈ tree.entries := by
  by_cases root : parent = []
  · exact .inl root
  · exact .inr (mem_of_lookup (by simpa only [get?, if_neg root] using directory))

theorem put_directory_kept {tree : FileTree} {location place : Location} {node : Node}
    (room : tree.hasRoom location node = true) (member : (place, .directory) ∈ tree.entries) :
    (place, .directory) ∈ tree.entries.put location node := by
  unfold Entries.put
  split
  · refine List.mem_map.mpr ⟨(place, .directory), member, ?_⟩
    by_cases same : place = location
    · subst same
      cases place with
      | nil => cases room
      | cons name parent =>
        have held : tree.get? (name :: parent) = some .directory := lookup_of_mem tree.distinct member
        simp [hasRoom, held] at room
        simp [room.2]
    · simp [same]
  · exact List.mem_append_left _ member

theorem replaced_places (entries : Entries) (location : Location) (node : Node) :
    (entries.map fun (place, old) => if place = location then (place, node) else (place, old)).map Prod.fst =
      entries.map Prod.fst := by
  rw [List.map_map]
  apply List.map_congr_left
  intro entry _
  dsimp only [Function.comp]
  split <;> rfl

theorem put_distinct (tree : FileTree) (location : Location) (node : Node) :
    ((tree.entries.put location node).map Prod.fst).Nodup := by
  unfold Entries.put
  split
  · rw [replaced_places]
    exact tree.distinct
  · rename_i absent
    rw [List.map_append, List.nodup_append]
    refine ⟨tree.distinct, by simp, ?_⟩
    intro place member other single
    rw [List.map_singleton, List.mem_singleton] at single
    intro same
    obtain ⟨⟨held, old⟩, held_member, rfl⟩ := List.mem_map.mp member
    have here : held = location := same.trans single
    subst here
    rw [lookup_of_mem tree.distinct held_member] at absent
    exact absent rfl

theorem put_attached {tree : FileTree} {location : Location} {node : Node}
    (room : tree.hasRoom location node = true) :
    ∀ entry ∈ tree.entries.put location node, Attached (tree.entries.put location node) entry.1 := by
  have kept : ∀ place, Attached tree.entries place → Attached (tree.entries.put location node) place := by
    intro place attached
    cases place with
    | nil => exact attached
    | cons name parent => exact attached.imp id (put_directory_kept room)
  have placed : Attached tree.entries location := by
    cases location with
    | nil => cases room
    | cons name parent =>
      simp only [hasRoom, Bool.and_eq_true, beq_iff_eq] at room
      exact directory_attached room.1
  intro entry member
  apply kept
  unfold Entries.put at member
  split at member
  · obtain ⟨old, old_member, rfl⟩ := List.mem_map.mp member
    dsimp only
    split
    · exact tree.attached old old_member
    · exact tree.attached old old_member
  · rcases List.mem_append.mp member with member | single
    · exact tree.attached entry member
    · rw [List.mem_singleton.mp single]
      exact placed

def put (tree : FileTree) (location : Location) (node : Node) : FileTree :=
  if room : tree.hasRoom location node = true then
    { tree with
      entries := tree.entries.put location node
      distinct := put_distinct tree location node
      attached := put_attached room }
  else tree

def children (tree : FileTree) (location : Location) : List (Name × Node) :=
  tree.entries.filterMap fun (place, node) =>
    match place with
    | [] => none
    | name :: parent => if parent = location then some (name, node) else none

def isWithin (inner outer : Location) : Bool := outer.isSuffixOf inner

def lineage : Location → List Location
  | [] => []
  | name :: parent => lineage parent ++ [name :: parent]

theorem lineage_length {location place : Location} (member : place ∈ lineage location) :
    place.length ≤ location.length := by
  induction location with
  | nil => cases member
  | cons name parent ih =>
    rcases List.mem_append.mp member with above | here
    · exact Nat.le_succ_of_le (ih above)
    · exact Nat.le_of_eq (congrArg List.length (List.mem_singleton.mp here))

theorem lineage_distinct (location : Location) : (lineage location).Nodup := by
  induction location with
  | nil => exact List.nodup_nil
  | cons name parent ih =>
    refine List.nodup_append.mpr ⟨ih, by simp, ?_⟩
    intro above member here single same
    have short := lineage_length member
    rw [same, List.mem_singleton.mp single, List.length_cons] at short
    omega

theorem lineage_parent {location : Location} {name : Name} {parent : Location}
    (member : name :: parent ∈ lineage location) : parent = [] ∨ parent ∈ lineage location := by
  induction location with
  | nil => cases member
  | cons last above ih =>
    rcases List.mem_append.mp member with higher | here
    · exact (ih higher).imp id (List.mem_append_left _)
    · cases List.mem_singleton.mp here
      cases parent with
      | nil => exact .inl rfl
      | cons next rest => exact .inr (by simp [lineage])

theorem lineage_attached (location : Location) :
    ∀ entry ∈ (lineage location).map fun place => (place, Node.directory),
      Attached ((lineage location).map fun place => (place, Node.directory)) entry.1 := by
  intro entry member
  obtain ⟨place, above, rfl⟩ := List.mem_map.mp member
  cases place with
  | nil =>
    have nonempty : ∀ {location : Location}, [] ∉ lineage location := by
      intro location
      induction location with
      | nil => simp [lineage]
      | cons name parent ih => simp [lineage, ih]
    exact nonempty above
  | cons name parent =>
    exact (lineage_parent above).imp id fun higher => List.mem_map.mpr ⟨parent, higher, rfl⟩

def emptyAt (current : Location) : FileTree where
  entries := (lineage current).map fun place => (place, .directory)
  current
  distinct := by
    rw [List.map_map, show Prod.fst ∘ (fun place : Location => (place, Node.directory)) = id from rfl, List.map_id]
    exact lineage_distinct current
  attached := lineage_attached current

def empty : FileTree := emptyAt [⟨"work", by decide⟩]

end FileTree

end Showcase
