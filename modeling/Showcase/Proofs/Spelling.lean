import Showcase.Proofs.Overlay

set_option autoImplicit false

namespace Showcase.Export

open FileTree
open FileTree.Path (join)

structure Passable (start : FileTree) (source target : String) (names : List Name) : Prop where
  lent : Spelled source names
  taken : Spelled target names
  unsealed : Unsealed start (names.reverse ++ start.target target)

theorem passable_before (written : Location → Prop) (before after : FileTree) (grows : Grows written before after)
    (source target : String) (names : List Name) (passable : Passable after source target names) :
    Passable before source target names := by
  have unsealed := passable.unsealed
  rw [target_congr after before grows.current] at unsealed
  exact ⟨passable.lent, passable.taken, unsealed_before written before after grows _ unsealed⟩

/-- All that lies at some names of the source can be copied, and is no deeper than a walk of that depth gets. -/
def Passed (start : FileTree) (source target : String) (depth : Nat) (names : List Name) : Prop :=
  ∀ rest node, start.get? ((names ++ rest).reverse ++ start.target source) = some node →
    Passable start source target (names ++ rest) ∧ (node = .directory → rest.length < depth)

theorem tally_each {α : Type} (work : α → Effect Failure Nat) (holds : FileTree → Prop) (fact : α → Prop)
    (items : List α)
    (each : ∀ item ∈ items, ∀ tree after count, holds tree → (work item).run tree = (.ok count, after) →
      holds after ∧ fact item)
    (count total : Nat) (tree after : FileTree) (held : holds tree)
    (done : (tally work items count).run tree = (.ok total, after)) : ∀ item ∈ items, fact item := by
  induction items generalizing count tree with
  | nil =>
      intro item member
      cases member
  | cons first rest ih =>
      obtain ⟨more, middle, ran, later⟩ := tally_cons work first rest count total tree after done
      obtain ⟨kept, here⟩ := each first List.mem_cons_self tree middle more held ran
      intro item member
      rcases List.mem_cons.mp member with rfl | inside
      · exact here
      · exact ih (fun other among => each other (List.mem_cons_of_mem first among)) _ middle kept later item inside

section Passed

variable {start : FileTree} {source target : String}

theorem passed_nothing (depth : Nat) (names : List Name) (node : Node)
    (held : start.get? (names.reverse ++ start.target source) = some node) (plain : node ≠ .directory)
    (here : Passable start source target names) : Passed start source target depth names := by
  intro rest other deeper
  cases rest with
  | nil =>
      rw [List.append_nil] at deeper ⊢
      rw [held] at deeper
      cases deeper
      exact ⟨here, fun same => absurd same plain⟩
  | cons name more =>
      have inner := ancestor_directory start more.reverse name (names.reverse ++ start.target source) other
        (by simpa using deeper)
      rw [held] at inner
      exact absurd (Option.some.inj inner) plain

theorem passed_directory (depth : Nat) (names : List Name) (here : Passable start source target names)
    (children : ∀ name node, start.get? ((names ++ [name]).reverse ++ start.target source) = some node →
      Passed start source target depth (names ++ [name])) : Passed start source target (depth + 1) names := by
  intro rest node held
  cases rest with
  | nil =>
      rw [List.append_nil]
      exact ⟨here, fun _ => Nat.succ_pos depth⟩
  | cons name more =>
      have joined : names ++ name :: more = names ++ [name] ++ more := by simp
      rw [joined] at held ⊢
      obtain ⟨child, above⟩ := within_held start ((names ++ [name]).reverse ++ start.target source) _ node
        ⟨more.reverse, by simp⟩ held
      obtain ⟨passable, deep⟩ := children name child above more node held
      exact ⟨passable, fun same => Nat.succ_lt_succ (deep same)⟩

variable (apart : Apart start source target) (nonempty : target ≠ "") {tree : FileTree}
variable (filled : Fills (Opened start source target) (Copied start source target) start tree)

include apart filled

theorem copy_file_passed (depth : Nat) (names : List Name) (file : File)
    (held : start.get? (names.reverse ++ start.target source) = some (.file file)) (after : FileTree) (count : Nat)
    (copied : (copyFile (below source names) (below target names)).run tree = (.ok count, after)) :
    Passed start source target depth names := by
  have free := grows_link_free _ start tree filled.toGrows apart.free
  obtain ⟨_, middle, first, done⟩ := run_bind_ok _ _ tree after count copied
  cases done
  obtain ⟨_, emptied, _, opened, stored, _⟩ := (copy_ok_iff tree after _ _).mp (during_ok _ _ tree after () first)
  obtain ⟨location, inspected⟩ := (open_ok_iff tree _ _).mp opened
  have spelled := inspect_spelled tree free source names location _ inspected
  obtain ⟨spot, resolved⟩ := store_resolved tree emptied _ _ stored
  have unsealed := replaceable_unsealed tree _ (store_ok tree emptied free _ _ stored).2.1
  rw [target_below] at unsealed
  exact passed_nothing depth names _ held (fun same => by cases same) (passable_before _ start tree filled.toGrows _ _ _
    ⟨spelled, ⟨((resolve_ok_iff tree true _ spot).mp resolved).1, spelled.2⟩, unsealed⟩)

include nonempty

omit filled in
theorem copy_below_passed (root : String) (depth : Nat) (trail : List Location) (names : List Name)
    (known : start.get? (names.reverse ++ start.target source) = some .directory) (tree after : FileTree) (count : Nat)
    (filled : Fills (Opened start source target) (Copied start source target) start tree)
    (copied : (copyBelow root depth trail (below source names) (below target names)).run tree = (.ok count, after)) :
    Passed start source target depth names := by
  induction depth generalizing trail names tree after count with
  | zero => cases copied
  | succ depth ih =>
      obtain ⟨made, location, ensured, inspected, visiting⟩ := copy_below_parts _ _ _ _ _ tree after count copied
      obtain ⟨making, _⟩ := ensure_copying apart filled names known made ensured
      have madeFilled := fills_trans filled making.fills
      have free := grows_link_free _ start made madeFilled.toGrows apart.free
      have child := listed_children apart madeFilled names location inspected
      have present := ensure_directories_ok tree made _ (below_nonempty target names (.inl nonempty)) ensured
      obtain ⟨_, opened⟩ := (is_directory_iff made _).mp present
      have unsealed : Unsealed made (names.reverse ++ made.target target) := by
        intro content sealed
        rw [← target_below, directory_target free _ present] at sealed
        cases sealed
      have each := tally_each _ (Fills (Opened start source target) (Copied start source target) start)
        (fun entry : Name × Node => Passed start source target depth (names ++ [entry.1])) _ ?turn 0 count made after
        madeFilled visiting
      case turn =>
        intro entry member before later number sofar ran
        obtain ⟨name, node⟩ := entry
        have held := (child name node).mp member
        have copies := copy_child_copies apart root depth (location :: trail) names name node held
          (copy_below_copies apart root depth (location :: trail))
        refine ⟨fills_trans sofar (copies before later number sofar ran).1.fills, ?_⟩
        cases node with
        | file file =>
            refine copy_file_passed apart sofar depth (names ++ [name]) file held later number ?_
            rw [below_snoc, below_snoc]
            exact ran
        | directory =>
            refine ih (location :: trail) (names ++ [name]) held before later number sofar ?_
            rw [below_snoc, below_snoc]
            exact ran
        | link linked => exact absurd held (apart.free _ linked)
      refine passed_directory depth names (passable_before _ start made madeFilled.toGrows _ _ _
        ⟨inspect_spelled made free source names _ _ inspected, inspect_spelled made free target names _ _ opened,
          unsealed⟩) ?_
      intro name node held
      exact each (name, node) ((child name node).mpr held)

end Passed

section Run

variable {registry : Registry} {deployment : Deployment} {source output : String} {tree made final : FileTree}
  {report : Report}

theorem output_directory (prepared : (ensureDirectories output).run tree = (.ok (), made))
    (exported : (run registry deployment source output).run tree = (.ok report, final))
    (directory : made.isDirectory source = true) : made.isDirectory output = true := by
  obtain ⟨other, _, _, _, _, ensured, checked, _⟩ :=
    run_stages registry deployment source output tree final report exported
  rw [prepared] at ensured
  cases ensured
  obtain ⟨_, site, _, outputAt, _⟩ := (check_overlap_ok made made source output checked).2 directory
  exact (is_directory_iff made output).mpr ⟨site, located_output output tree made prepared site outputAt⟩

theorem run_passed (free : LinkFree tree) (prepared : (ensureDirectories output).run tree = (.ok (), made))
    (exported : (run registry deployment source output).run tree = (.ok report, final))
    (directory : made.isDirectory source = true) (names : List Name) (node : Node)
    (supplied : Supplies made source names node) :
    Passable made source (join output "") names ∧ (node = .directory → names.length < depthLimit) := by
  obtain ⟨paged, placed, paths, count, stages, visited, pages, _, copied, _⟩ := run_placed free prepared exported
  have madeFree := ensured_link_free free prepared
  have outside := stages_apart madeFree stages directory
  have present := output_directory prepared exported directory
  have nonempty := Path.join_nonempty output "" (directory_nonempty made output present) (by decide)
  obtain ⟨apart, known⟩ := placed_apart registry deployment madeFree visited pages directory outside
  rcases copy_assets_ok placed final source output count copied with ⟨_, copied⟩ | ⟨missing, _⟩
  · have passed := copy_below_passed apart nonempty source depthLimit [] [] known placed final count (fills_refl placed)
      copied
    have held : placed.get? (names.reverse ++ placed.target source) = some node := by
      rw [target_congr placed made pages.current, pages_outside registry deployment pages _ (outside _)]
      exact supplied.2
    obtain ⟨passable, deep⟩ := passed names node held
    exact ⟨passable_before _ made placed pages.toGrows _ _ _ passable, deep⟩
  · rw [is_directory_grows madeFree _ pages.toGrows source directory] at missing
    cases missing

end Run

end Showcase.Export
