import Showcase.Proofs.Effects

set_option autoImplicit false

namespace Showcase.FileTree

structure Fills (opened written : Location → Prop) (before after : FileTree) : Prop
    extends Grows written before after where
  fresh : ∀ place, after.get? place = some .directory → before.get? place = some .directory ∨ opened place

section Fills

variable {opened written : Location → Prop} {before middle after : FileTree}

theorem fills_refl (tree : FileTree) : Fills opened written tree tree :=
  ⟨grows_refl written tree, fun _ held => .inl held⟩

theorem fills_trans (first : Fills opened written before middle) (last : Fills opened written middle after) :
    Fills opened written before after := by
  refine ⟨grows_trans written before middle after first.toGrows last.toGrows, fun place held => ?_⟩
  rcases last.fresh place held with earlier | new
  · exact first.fresh place earlier
  · exact .inr new

theorem fills_mono {moreOpened moreWritten : Location → Prop} (opens : ∀ place, opened place → moreOpened place)
    (writes : ∀ place, written place → moreWritten place) (fills : Fills opened written before after) :
    Fills moreOpened moreWritten before after :=
  ⟨grows_mono written moreWritten before after writes fills.toGrows,
    fun place held => (fills.fresh place held).imp_right (opens place)⟩

theorem fills_same (fills : Fills opened written before after) (place : Location) (unwritten : ¬ written place)
    (unopened : opened place → before.get? place = some .directory) : after.get? place = before.get? place := by
  have files := fills.files place unwritten
  have links := fills.links place
  cases held : before.get? place with
  | some node =>
      cases node with
      | file file => exact (files file).mpr held
      | link target => exact (links target).mpr held
      | directory => exact fills.directories place held
  | none =>
      cases later : after.get? place with
      | none => rfl
      | some node =>
          cases node with
          | file file => rw [(files file).mp later] at held; cases held
          | link target => rw [(links target).mp later] at held; cases held
          | directory =>
              rcases fills.fresh place later with earlier | new
              · rw [earlier] at held
                cases held
              · rw [unopened new] at held
                cases held

end Fills

theorem grows_keeps {written : Location → Prop} {before after : FileTree} (grows : Grows written before after)
    (place : Location) (node : Node) (held : before.get? place = some node) (away : ¬ written place) :
    after.get? place = some node := by
  cases node with
  | file file => exact (grows.files place away file).mpr held
  | directory => exact grows.directories place held
  | link target => exact (grows.links place target).mpr held

/-- The places that the text of a path passes, the last one included. -/
def Visits (tree : FileTree) (path : String) (location : Location) : Prop :=
  ∃ steps, steps <+: (Route.ofText path).steps ∧ location = place (tree.start (Route.ofText path)) steps

theorem visits_target (tree : FileTree) (path : String) : Visits tree path (tree.target path) :=
  ⟨_, List.prefix_rfl, rfl⟩

theorem visits_congr (a b : FileTree) (same : a.current = b.current) (path : String) (location : Location)
    (visited : Visits a path location) : Visits b path location := by
  obtain ⟨steps, early, rfl⟩ := visited
  exact ⟨steps, early, by rw [start_congr a b same]⟩

theorem visits_join_empty (tree : FileTree) (path : String) (location : Location)
    (visited : Visits tree (Path.join path "") location) : Visits tree path location := by
  obtain ⟨steps, early, rfl⟩ := visited
  rw [Route.steps_join path "" (by decide), show (Route.ofText "").steps = [] by decide, List.append_nil] at early
  refine ⟨steps, early, ?_⟩
  rw [start, start, Route.absolute_join path "" (by decide)]

theorem visits_parent (tree : FileTree) (path parent : String) (above : Path.parent? path = some parent)
    (location : Location) (visited : Visits tree parent location) :
    ∃ steps, steps <+: (Route.ofText path).steps.dropLast ∧ location = place (tree.start (Route.ofText path)) steps := by
  obtain ⟨absolute, fewer⟩ := Route.parent_steps path parent above
  obtain ⟨steps, early, rfl⟩ := visited
  refine ⟨steps, early.trans fewer, ?_⟩
  rw [start, start, absolute]

theorem visits_below (tree : FileTree) (base : String) (names : List Name) (location : Location)
    (visited : Visits tree (below base names) location) :
    Visits tree base location ∨ ∃ inner, inner <+: names ∧ location = inner.reverse ++ tree.target base := by
  obtain ⟨steps, early, rfl⟩ := visited
  have started : tree.start (Route.ofText (below base names)) = tree.start (Route.ofText base) := by
    rw [start, start, below_absolute]
  rw [below_steps] at early
  rw [started]
  rcases List.prefix_or_prefix_of_prefix early (List.prefix_append _ _) with within | ⟨rest, rfl⟩
  · exact .inl ⟨steps, within, rfl⟩
  · have named := List.prefix_iff_eq_take.mp ((List.prefix_append_right_inj _).mp early)
    rw [← List.map_take] at named
    refine .inr ⟨_, List.take_prefix rest.length names, ?_⟩
    rw [place_append, ← place_names, ← named]
    rfl

theorem visits_parent_below (tree : FileTree) (base parent : String) (names : List Name) (inner : names ≠ [])
    (above : Path.parent? (below base names) = some parent) (location : Location) (visited : Visits tree parent location) :
    Visits tree (below base names.dropLast) location := by
  obtain ⟨steps, early, rfl⟩ := visits_parent tree (below base names) parent above location visited
  rw [below_steps, List.dropLast_append_of_ne_nil (by simpa using inner), ← List.map_dropLast, ← below_steps] at early
  refine ⟨steps, early, ?_⟩
  rw [start, start, below_absolute, below_absolute]

theorem walk_visits (tree : FileTree) (free : LinkFree tree) (follow : Bool) (links : Nat) (location middle : Location)
    (steps first : List Step) (slash : Bool) (walked : tree.walk follow links location steps slash = .ok (.found middle))
    (directory : tree.get? middle = some .directory) (early : first <+: steps) :
    tree.get? (place location first) = some .directory := by
  induction steps generalizing location first with
  | nil =>
      rw [walk_nil] at walked
      cases Except.ok.inj walked
      rw [List.prefix_nil.mp early]
      exact directory
  | cons step rest ih =>
      obtain ⟨here, onward⟩ := walk_cases tree follow links location rest slash free step _ walked
      cases first with
      | nil => exact here
      | cons other others =>
          obtain ⟨rfl, later⟩ := List.cons_prefix_cons.mp early
          obtain moved | ⟨name, rfl, _, inside | file | vacant⟩ := onward
          · exact ih (advance location other) others moved.2 later
          · exact ih (name :: location) others inside.2 later
          · obtain ⟨_, rfl, _, same⟩ := file
            cases same
            rw [List.prefix_nil.mp later]
            exact directory
          · cases vacant.2.2

theorem visits_directory (tree : FileTree) (free : LinkFree tree) (path : String) (directory : tree.isDirectory path = true)
    (location : Location) (visited : Visits tree path location) : tree.get? location = some .directory := by
  obtain ⟨found, inspected⟩ := (is_directory_iff tree path).mp directory
  obtain ⟨located, held⟩ := (inspect_ok_iff tree path found _).mp inspected
  obtain ⟨_, walked⟩ := (resolve_ok_iff tree true path _).mp ((locate_ok_iff tree path found).mp located)
  obtain ⟨steps, early, rfl⟩ := visited
  exact walk_visits tree free true linkLimit _ found _ steps _ walked held early

section Effects

variable (opened written : Location → Prop) (start : FileTree) (free : LinkFree start)

include free

theorem make_directory_fills (path : String) (opens : opened (start.target path)) :
    Preserves (Fills opened written start) (makeDirectory path) := by
  intro tree filled
  have grown := growing_preserves _ (make_directory_growing path) written start tree filled.toGrows
  refine ⟨grown, fun place held => ?_⟩
  rw [make_directory_run] at held
  cases vacant : tree.vacancy path with
  | error fault =>
      rw [vacant] at held
      exact filled.fresh place held
  | ok location =>
      rw [vacant] at held
      have here := vacancy_target tree (grows_link_free _ start tree filled.toGrows free) path location vacant
      rw [target_congr tree start filled.current] at here
      by_cases same : place = location
      · rw [same, here]
        exact .inr opens
      · exact filled.fresh place ((get_put_ne tree location place .directory same).symm.trans held)

theorem ensure_directories_fills (path : String) (opens : ∀ location, Visits start path location → opened location) :
    Preserves (Fills opened written start) (ensureDirectories path) := by
  refine ensure_rounds_preserves _ (fun path => ∀ location, Visits start path location → opened location) ?_ ?_ _ path
    opens
  · exact fun path known => make_directory_fills opened written start free path (known _ (visits_target start path))
  · intro path parent above known location visited
    obtain ⟨steps, early, rfl⟩ := visits_parent start path parent above location visited
    exact known _ ⟨steps, early.trans (List.dropLast_prefix _), rfl⟩

theorem store_fills (path : String) (file : File) (writes : written (start.target path)) :
    Preserves (Fills opened written start) (store path file) := by
  intro tree filled
  have treeFree := grows_link_free _ start tree filled.toGrows free
  rw [store_run]
  cases chosen : tree.writeLocation path with
  | error fault => exact filled
  | ok location =>
      obtain ⟨here, room, replaceable, _⟩ := write_location_room tree treeFree path location file chosen
      have put := put_file_grows tree location file replaceable
      rw [target_congr tree start filled.current] at here
      refine fills_trans filled ⟨grows_mono _ written tree _ ?_ put, fun place held => .inl ?_⟩
      · rintro place rfl
        rw [here]
        exact writes
      · have get := get_put tree location place (.file file) room
        rw [get] at held
        split at held
        · cases held
        · exact held

end Effects

end Showcase.FileTree
