import Mathlib.Algebra.BigOperators.Group.Finset.Basic
import Showcase.Proofs.Keeping

set_option autoImplicit false

namespace Showcase

namespace FileTree

def filesWithin (tree : FileTree) (home : Location) : Finset Location :=
  (tree.entries.filterMap fun (place, node) =>
    match node with
    | .file _ => if isWithin place home then some place else none
    | _ => none).toFinset

theorem mem_files_within (tree : FileTree) (home place : Location) :
    place ∈ tree.filesWithin home ↔ home <:+ place ∧ ∃ file, tree.get? place = some (.file file) := by
  rw [filesWithin, List.mem_toFinset, List.mem_filterMap]
  constructor
  · rintro ⟨⟨held, node⟩, member, hit⟩
    cases node with
    | directory => cases hit
    | link target => cases hit
    | file file =>
        by_cases inside : isWithin held home = true
        · simp only [inside, if_true, Option.some.injEq] at hit
          subst hit
          exact ⟨List.isSuffixOf_iff_suffix.mp inside, file, entry_held tree held _ member⟩
        · simp [inside] at hit
  · rintro ⟨inside, file, held⟩
    have inner : place ≠ [] := by
      rintro rfl
      cases held
    rw [get?, if_neg inner] at held
    exact ⟨(place, .file file), mem_of_lookup held, by simp [isWithin, inside]⟩

theorem files_within_congr (a b : FileTree) (home : Location)
    (same : ∀ rest, a.get? (rest ++ home) = b.get? (rest ++ home)) : a.filesWithin home = b.filesWithin home := by
  ext place
  rw [mem_files_within, mem_files_within]
  apply and_congr_right
  intro inside
  obtain ⟨rest, rfl⟩ := inside
  rw [same]

theorem within_cases (home place : Location) (inside : home <:+ place) :
    place = home ∨ ∃ name, name :: home <:+ place := by
  obtain ⟨rest, rfl⟩ := inside
  rcases List.eq_nil_or_concat rest with rfl | ⟨others, name, rfl⟩
  · exact .inl rfl
  · exact .inr ⟨name, others, by simp⟩

theorem within_held (tree : FileTree) (home place : Location) (node : Node) (inside : home <:+ place)
    (held : tree.get? place = some node) : ∃ above, tree.get? home = some above := by
  obtain rfl | ⟨name, rest, rfl⟩ := within_cases home place inside
  · exact ⟨node, held⟩
  · exact ⟨.directory, ancestor_directory tree rest name home node held⟩

theorem within_directory (tree : FileTree) (home place : Location) (inside : home <:+ place)
    (held : tree.get? place = some .directory) : tree.get? home = some .directory := by
  obtain rfl | ⟨name, rest, rfl⟩ := within_cases home place inside
  · exact held
  · exact ancestor_directory tree rest name home _ held

theorem files_within_file (tree : FileTree) (place : Location) (file : File)
    (held : tree.get? place = some (.file file)) : tree.filesWithin place = {place} := by
  ext other
  rw [mem_files_within, Finset.mem_singleton]
  constructor
  · rintro ⟨inside, _, found⟩
    obtain same | ⟨name, rest, rfl⟩ := within_cases place other inside
    · exact same
    · rw [ancestor_directory tree rest name place _ found] at held
      cases held
  · rintro rfl
    exact ⟨List.suffix_rfl, file, held⟩

theorem children_distinct (tree : FileTree) (location : Location) : ((tree.children location).map Prod.fst).Nodup := by
  have entries : tree.entries.Nodup := tree.distinct.of_map
  have children : (tree.children location).Nodup := by
    refine entries.filterMap ?_
    rintro ⟨place, node⟩ ⟨other, same⟩ child first second
    cases place with
    | nil => cases first
    | cons name parent =>
        cases other with
        | nil => cases second
        | cons next above =>
            simp only [Option.mem_def, Option.ite_none_right_eq_some, Option.some.injEq] at first second
            obtain ⟨rfl, rfl⟩ := first
            obtain ⟨rfl, hit⟩ := second
            cases hit
            rfl
  refine children.map_on ?_
  rintro ⟨name, node⟩ member ⟨other, same⟩ also rfl
  rw [child_iff] at member also
  rw [member] at also
  cases also
  rfl

theorem files_within_children (tree : FileTree) (location : Location) (names : List Name) (distinct : names.Nodup)
    (directory : tree.get? location = some .directory)
    (listed : ∀ name, name ∈ names ↔ ∃ node, tree.get? (name :: location) = some node) :
    (tree.filesWithin location).card =
      names.foldl (fun total name => total + (tree.filesWithin (name :: location)).card) 0 := by
  have parts : tree.filesWithin location = names.toFinset.biUnion fun name => tree.filesWithin (name :: location) := by
    ext place
    simp only [Finset.mem_biUnion, List.mem_toFinset, mem_files_within, listed]
    constructor
    · rintro ⟨inside, file, held⟩
      obtain rfl | ⟨name, deeper⟩ := within_cases location place inside
      · rw [directory] at held
        cases held
      · exact ⟨name, within_held tree _ place _ deeper held, deeper, file, held⟩
    · rintro ⟨name, _, deeper, file⟩
      exact ⟨(List.suffix_cons name location).trans deeper, file⟩
  rw [parts, Finset.card_biUnion, List.sum_toFinset _ distinct, List.sum_eq_foldl, List.foldl_map]
  intro first _ second _ different
  rw [Function.onFun, Finset.disjoint_left]
  intro place inFirst inSecond
  have inside := ((mem_files_within tree _ place).mp inFirst).1
  have also := ((mem_files_within tree _ place).mp inSecond).1
  have same := List.suffix_of_suffix_length_le inside also (by simp)
  exact different (List.cons.inj (same.eq_of_length (by simp))).1

end FileTree

namespace Export

open FileTree
open FileTree.Path (join)

def Opened (start : FileTree) (source target : String) (place : Location) : Prop :=
  start.get? place = some .directory ∨
    ∃ rest, place = rest ++ start.target target ∧ start.get? (rest ++ start.target source) = some .directory

def Copied (start : FileTree) (source target : String) (place : Location) : Prop :=
  ∃ rest file, place = rest ++ start.target target ∧ start.get? (rest ++ start.target source) = some (.file file)

/-- A tree in which the way to the target is made and the source lies outside of it. -/
structure Apart (start : FileTree) (source target : String) : Prop where
  free : LinkFree start
  visited : ∀ location, Visits start target location → start.get? location = some .directory
  outside : ∀ rest, ¬ start.target target <:+ rest ++ start.target source

def Arrived (start : FileTree) (source target : String) (tree : FileTree) (rest : Location) : Prop :=
  ∃ node, start.get? (rest ++ start.target source) = some node ∧ tree.get? (rest ++ start.target target) = some node

def Complete (start : FileTree) (source target : String) (tree : FileTree) (home : Location) : Prop :=
  ∀ rest, home <:+ rest → start.get? (rest ++ start.target source) ≠ none → Arrived start source target tree rest

structure Copying (start : FileTree) (source target : String) (before after : FileTree) : Prop where
  fills : Fills (Opened start source target) (Copied start source target) before after
  arrived : ∀ rest, Arrived start source target before rest → Arrived start source target after rest

/-- An effect that copies the part of the source at a place, and counts its files. -/
def Copies (start : FileTree) (source target : String) (home : Location) (effect : Effect Failure Nat) : Prop :=
  ∀ tree after count, Fills (Opened start source target) (Copied start source target) start tree →
    effect.run tree = (.ok count, after) →
    Copying start source target tree after ∧ Complete start source target after home ∧
      count = (start.filesWithin (home ++ start.target source)).card

section Copying

variable {start : FileTree} {source target : String}

theorem copying_refl (tree : FileTree) : Copying start source target tree tree := ⟨fills_refl tree, fun _ held => held⟩

theorem copying_trans {before middle after : FileTree} (first : Copying start source target before middle)
    (last : Copying start source target middle after) : Copying start source target before after :=
  ⟨fills_trans first.fills last.fills, fun rest held => last.arrived rest (first.arrived rest held)⟩

theorem complete_kept {before after : FileTree} (copying : Copying start source target before after) (home : Location)
    (complete : Complete start source target before home) : Complete start source target after home :=
  fun rest inside held => copying.arrived rest (complete rest inside held)

theorem complete_file (tree : FileTree) (home : Location) (file : File)
    (held : start.get? (home ++ start.target source) = some (.file file))
    (arrived : Arrived start source target tree home) : Complete start source target tree home := by
  intro rest inside present
  obtain rfl | ⟨name, more, rfl⟩ := within_cases home rest inside
  · exact arrived
  · obtain ⟨node, there⟩ := Option.ne_none_iff_exists'.mp present
    rw [List.append_assoc, List.cons_append] at there
    rw [ancestor_directory start more name _ node there] at held
    cases held

theorem complete_directory (tree : FileTree) (home : Location) (arrived : Arrived start source target tree home)
    (children : ∀ name node, start.get? (name :: (home ++ start.target source)) = some node →
      Complete start source target tree (name :: home)) : Complete start source target tree home := by
  intro rest inside present
  obtain rfl | ⟨name, deeper⟩ := within_cases home rest inside
  · exact arrived
  · obtain ⟨node, there⟩ := Option.ne_none_iff_exists'.mp present
    obtain ⟨more, rfl⟩ := deeper
    obtain ⟨child, held⟩ := within_held start (name :: (home ++ start.target source)) _ node
      ⟨more, by simp⟩ there
    exact children name child held _ ⟨more, rfl⟩ present

variable (apart : Apart start source target) {tree : FileTree}
variable (filled : Fills (Opened start source target) (Copied start source target) start tree)

include apart filled

theorem source_same (rest : Location) :
    tree.get? (rest ++ start.target source) = start.get? (rest ++ start.target source) := by
  refine fills_same filled _ ?_ ?_
  · rintro ⟨other, file, same, _⟩
    exact apart.outside rest (same ▸ List.suffix_append other _)
  · rintro (held | ⟨other, same, _⟩)
    · exact held
    · exact absurd (same ▸ List.suffix_append other _) (apart.outside rest)

theorem ensure_copying (names : List Name) (known : start.get? (names.reverse ++ start.target source) = some .directory)
    (after : FileTree) (ensured : (ensureDirectories (below target names)).run tree = (.ok (), after)) :
    Copying start source target tree after ∧ after.get? (names.reverse ++ start.target target) = some .directory := by
  have free := grows_link_free _ start tree filled.toGrows apart.free
  have opens : ∀ location, Visits tree (below target names) location → Opened start source target location := by
    intro location visited
    rcases visits_below start target names location (visits_congr tree start filled.current _ _ visited) with
      way | ⟨inner, ⟨more, rfl⟩, rfl⟩
    · exact .inl (apart.visited location way)
    · refine .inr ⟨inner.reverse, rfl, within_directory start _ _ ?_ known⟩
      rw [List.reverse_append, List.append_assoc]
      exact List.suffix_append _ _
  have grown := ensure_directories_growing (below target names) tree
  have fills := ensure_directories_fills _ (Copied start source target) tree free (below target names) opens tree
    (fills_refl tree)
  rw [ensured] at grown fills
  refine ⟨⟨fills, ?_⟩, ?_⟩
  · rintro rest ⟨node, held, here⟩
    exact ⟨node, held, grows_keeps grown _ node here id⟩
  · cases names with
    | nil =>
        exact fills.directories _ (filled.directories _ (apart.visited _ (visits_target start target)))
    | cons name others =>
        have nonempty := below_nonempty target (name :: others) (.inr (by simp))
        have held := directory_target (grows_link_free _ tree after grown free) _
          (ensure_directories_ok tree after _ nonempty ensured)
        rwa [target_below, target_congr after start (grown.current.trans filled.current)] at held

omit filled in
theorem copy_file_copies (names : List Name) (file : File)
    (held : start.get? (names.reverse ++ start.target source) = some (.file file)) :
    Copies start source target names.reverse (copyFile (below source names) (below target names)) := by
  intro tree after count filled copied
  have free := grows_link_free _ start tree filled.toGrows apart.free
  have place : ∀ base, tree.target (below base names) = names.reverse ++ start.target base := by
    intro base
    rw [target_below, target_congr tree start filled.current]
  obtain ⟨rfl, ⟨other, opened, stored⟩, _, grown⟩ := copy_file_ok tree after free _ _ count copied
  rw [place] at grown
  have sameFile : other = file := by
    have found := open_target free _ other opened
    rw [place, source_same apart filled, held] at found
    cases found
    rfl
  have arrived : Arrived start source target after names.reverse := by
    have different : tree.target (below source names) ≠ tree.target (below target names) := by
      rw [place, place]
      intro same
      exact apart.outside names.reverse (same ▸ List.suffix_append _ _)
    have found := open_target (grows_link_free _ tree after grown free) _ other (stored different)
    rw [target_below, target_congr after start (grown.current.trans filled.current), sameFile] at found
    exact ⟨.file file, held, found⟩
  have fills := copy_file_preserves (Fills (Opened start source target) (Copied start source target) tree)
    (below source names) (below target names) (fun before sofar => copy_keeps _ _ _ before sofar
      (fun _ _ _ => store_fills _ _ tree free _ _ ⟨names.reverse, file, place target, held⟩ before sofar))
    tree (fills_refl tree)
  rw [copied] at fills
  refine ⟨⟨fills, ?_⟩, complete_file after _ file held arrived, ?_⟩
  · rintro rest ⟨node, known, here⟩
    by_cases same : rest = names.reverse
    · rw [same]
      exact arrived
    · exact ⟨node, known, grows_keeps grown _ node here (fun hit => same (List.append_cancel_right hit))⟩
  · rw [files_within_file start _ file held, Finset.card_singleton]

omit apart in
theorem tally_copies {α : Type} (work : α → Effect Failure Nat) (home : α → Location) (items : List α)
    (each : ∀ item ∈ items, Copies start source target (home item) (work item)) (count total : Nat) (after : FileTree)
    (done : (tally work items count).run tree = (.ok total, after)) :
    Copying start source target tree after ∧ (∀ item ∈ items, Complete start source target after (home item)) ∧
      total = items.foldl (fun sum item => sum + (start.filesWithin (home item ++ start.target source)).card) count := by
  induction items generalizing count tree with
  | nil =>
      cases done
      refine ⟨copying_refl _, ?_, rfl⟩
      intro item member
      cases member
  | cons item rest ih =>
      obtain ⟨more, middle, ran, later⟩ := tally_cons work item rest count total tree after done
      obtain ⟨copying, complete, rfl⟩ := each item List.mem_cons_self tree middle more filled ran
      obtain ⟨further, others, sum⟩ := ih (fills_trans filled copying.fills)
        (fun other member => each other (List.mem_cons_of_mem item member)) _ later
      refine ⟨copying_trans copying further, ?_, sum⟩
      intro other member
      rcases List.mem_cons.mp member with rfl | inside
      · exact complete_kept further _ complete
      · exact others other inside

theorem listed_children (names : List Name) (location : Location)
    (inspected : tree.inspect (below source names) = .ok (location, .directory)) (name : Name) (node : Node) :
    (name, node) ∈ tree.children location ↔
      start.get? ((names ++ [name]).reverse ++ start.target source) = some node := by
  have free := grows_link_free _ start tree filled.toGrows apart.free
  rw [child_iff, (inspect_target free _ location _ inspected).1, target_below, target_congr tree start filled.current,
    List.reverse_append, List.reverse_singleton, List.singleton_append, ← source_same apart filled]
  rfl

omit filled in
theorem copy_child_copies (root : String) (depth : Nat) (trail : List Location) (names : List Name) (name : Name)
    (node : Node) (held : start.get? ((names ++ [name]).reverse ++ start.target source) = some node)
    (deeper : ∀ inner, start.get? (inner.reverse ++ start.target source) = some .directory →
      Copies start source target inner.reverse (copyBelow root depth trail (below source inner) (below target inner))) :
    Copies start source target (names ++ [name]).reverse
      (copyChild root depth trail (below source names) (below target names) (name, node)) := by
  cases node with
  | file file =>
      have copies := copy_file_copies apart (names ++ [name]) file held
      rw [below_snoc, below_snoc] at copies
      exact copies
  | directory =>
      have copies := deeper (names ++ [name]) held
      rw [below_snoc, below_snoc] at copies
      exact copies
  | link linked => exact absurd held (apart.free _ linked)

omit filled in
theorem copy_below_copies (root : String) (depth : Nat) (trail : List Location) (names : List Name)
    (known : start.get? (names.reverse ++ start.target source) = some .directory) :
    Copies start source target names.reverse (copyBelow root depth trail (below source names) (below target names)) := by
  -- The nodes of the source arrive directory by directory: the directory itself first, then what each child holds.
  induction depth generalizing trail names with
  | zero =>
      intro tree after count filled copied
      cases copied
  | succ depth ih =>
      intro tree after count filled copied
      obtain ⟨made, location, ensured, inspected, visiting⟩ := copy_below_parts _ _ _ _ _ tree after count copied
      obtain ⟨making, directory⟩ := ensure_copying apart filled names known made ensured
      have madeFilled := fills_trans filled making.fills
      have child := listed_children apart madeFilled names location inspected
      have each : ∀ entry ∈ made.children location, Copies start source target (names ++ [entry.1]).reverse
          (copyChild root depth (location :: trail) (below source names) (below target names) entry) := by
        intro entry member
        exact copy_child_copies apart root depth _ names entry.1 entry.2 ((child _ _).mp member) (ih (location :: trail))
      obtain ⟨copying, complete, counted⟩ := tally_copies madeFilled _ _ _ each 0 count after visiting
      have nested : ∀ name, (names ++ [name]).reverse = name :: names.reverse := fun name => by simp
      simp only [nested] at child complete counted
      refine ⟨copying_trans making copying, ?_, ?_⟩
      · refine complete_directory after _ ⟨.directory, known, copying.fills.directories _ directory⟩ ?_
        exact fun name node held => complete (name, node) ((child name node).mpr held)
      · rw [counted, files_within_children start _ _ (children_distinct made location) known ?_, List.foldl_map]
        · rfl
        · intro name
          simp [child]

end Copying

end Export

end Showcase
