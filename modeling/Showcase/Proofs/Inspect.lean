import Showcase.Proofs.Walk

set_option autoImplicit false

namespace Showcase.FileTree

/-- The place that the text of a path says. -/
def target (tree : FileTree) (path : String) : Location :=
  place (tree.start (Route.ofText path)) (Route.ofText path).steps

theorem start_congr (a b : FileTree) (same : a.current = b.current) (route : Route) : a.start route = b.start route := by
  rw [start, start, same]

theorem target_congr (a b : FileTree) (same : a.current = b.current) (path : String) : a.target path = b.target path := by
  rw [target, target, start_congr a b same]

theorem resolve_ok_iff (tree : FileTree) (follow : Bool) (path : String) (spot : Spot) :
    tree.resolve follow path = .ok spot ↔ pathFault? path = none ∧
      tree.walk follow linkLimit (tree.start (Route.ofText path)) (Route.ofText path).steps (Route.ofText path).slash =
        .ok spot := by
  unfold resolve
  cases pathFault? path with
  | some fault => simp
  | none => simp

theorem locate_ok_iff (tree : FileTree) (path : String) (location : Location) :
    tree.locate path = .ok location ↔ tree.resolve true path = .ok (.found location) := by
  unfold locate
  cases tree.resolve true path with
  | error fault => simp [bind, Except.bind]
  | ok spot =>
      cases spot with
      | found place => simp [bind, Except.bind, pure, Except.pure]
      | missing parent name slash => simp [bind, Except.bind, throw, throwThe, MonadExceptOf.throw]

theorem inspect_ok_iff (tree : FileTree) (path : String) (location : Location) (node : Node) :
    tree.inspect path = .ok (location, node) ↔ tree.locate path = .ok location ∧ tree.get? location = some node := by
  unfold inspect
  cases tree.locate path with
  | error fault => simp [bind, Except.bind]
  | ok place =>
      cases held : tree.get? place with
      | none =>
          simp only [bind, Except.bind, held, throw, throwThe, MonadExceptOf.throw, reduceCtorEq, false_iff, not_and,
            Except.ok.injEq]
          rintro rfl
          simp [held]
      | some found =>
          simp only [bind, Except.bind, held, pure, Except.pure, Except.ok.injEq, Prod.mk.injEq]
          constructor
          · rintro ⟨rfl, rfl⟩
            exact ⟨rfl, held⟩
          · rintro ⟨rfl, same⟩
            exact ⟨rfl, Option.some.inj (held.symm.trans same)⟩

theorem is_directory_iff (tree : FileTree) (path : String) :
    tree.isDirectory path = true ↔ ∃ location, tree.inspect path = .ok (location, .directory) := by
  unfold isDirectory
  cases tree.inspect path with
  | error fault => simp
  | ok found =>
      obtain ⟨location, node⟩ := found
      cases node <;> simp

theorem directory_nonempty (tree : FileTree) (path : String) (directory : tree.isDirectory path = true) : path ≠ "" := by
  intro empty
  rw [empty] at directory
  cases directory

theorem open_ok_iff (tree : FileTree) (path : String) (file : File) :
    tree.openFile path = .ok file ↔ ∃ location, tree.inspect path = .ok (location, .file file) := by
  unfold openFile
  cases tree.inspect path with
  | error fault => simp [bind, Except.bind]
  | ok found =>
      obtain ⟨location, node⟩ := found
      cases node <;> simp [bind, Except.bind, pure, Except.pure, throw, throwThe, MonadExceptOf.throw]

theorem read_ok_iff (tree : FileTree) (path : String) (content : Bytes) :
    tree.read path = .ok content ↔ ∃ access, tree.openFile path = .ok ⟨content, access⟩ := by
  unfold read
  cases tree.openFile path with
  | error fault => simp [bind, Except.bind]
  | ok file =>
      obtain ⟨bytes, access⟩ := file
      simp [bind, Except.bind, pure, Except.pure]

theorem open_read (tree : FileTree) (path : String) (file : File) (opened : tree.openFile path = .ok file) :
    tree.read path = .ok file.content :=
  (read_ok_iff tree path file.content).mpr ⟨file.access, opened⟩

theorem list_ok_iff (tree : FileTree) (path : String) (children : List (Name × Node)) :
    tree.list path = .ok children ↔
      ∃ location, tree.inspect path = .ok (location, .directory) ∧ children = tree.children location := by
  unfold list
  cases tree.inspect path with
  | error fault => simp [bind, Except.bind]
  | ok found =>
      obtain ⟨location, node⟩ := found
      cases node <;> simp [bind, Except.bind, pure, Except.pure, throw, throwThe, MonadExceptOf.throw, eq_comm]

section LinkFree

variable {tree before after : FileTree}

theorem locate_target (free : LinkFree tree) (path : String) (location : Location)
    (located : tree.locate path = .ok location) : location = tree.target path := by
  rw [locate_ok_iff, resolve_ok_iff] at located
  exact walk_place tree free true linkLimit _ _ _ _ located.2

theorem inspect_target (free : LinkFree tree) (path : String) (location : Location) (node : Node)
    (inspected : tree.inspect path = .ok (location, node)) :
    location = tree.target path ∧ tree.get? (tree.target path) = some node := by
  obtain ⟨located, held⟩ := (inspect_ok_iff tree path location node).mp inspected
  have same := locate_target free path location located
  exact ⟨same, same ▸ held⟩

theorem open_target (free : LinkFree tree) (path : String) (file : File) (opened : tree.openFile path = .ok file) :
    tree.get? (tree.target path) = some (.file file) := by
  obtain ⟨location, inspected⟩ := (open_ok_iff tree path file).mp opened
  exact (inspect_target free path location _ inspected).2

theorem directory_target (free : LinkFree tree) (path : String) (directory : tree.isDirectory path = true) :
    tree.get? (tree.target path) = some .directory := by
  obtain ⟨location, inspected⟩ := (is_directory_iff tree path).mp directory
  exact (inspect_target free path location _ inspected).2

theorem inspect_extends (free : LinkFree before) (written : Location → Prop) (grows : Grows written before after)
    (path : String) (spot : Spot) (resolved : before.resolve true path = .ok spot)
    (flat : ∀ parent name, spot ≠ .missing parent name true) (node : Node) (plain : ∀ target, node ≠ .link target)
    (held : after.get? (before.target path) = some node) : after.inspect path = .ok (before.target path, node) := by
  obtain ⟨faultless, walked⟩ := (resolve_ok_iff before true path spot).mp resolved
  have here : spot.location = before.target path := walk_place before free true linkLimit _ _ _ _ walked
  have kind : after.get? spot.location = some .directory ∨
      ∃ file, after.get? spot.location = some (.file file) := by
    rw [here, held]
    cases node with
    | file file => exact .inr ⟨file, rfl⟩
    | directory => exact .inl rfl
    | link target => exact absurd rfl (plain target)
  have again := walk_extends before after free grows.directories true linkLimit _ _ _ spot walked flat kind
  rw [here, start_congr before after grows.current.symm] at again
  rw [inspect_ok_iff, locate_ok_iff, resolve_ok_iff]
  exact ⟨⟨faultless, again⟩, held⟩

theorem is_directory_grows (free : LinkFree before) (written : Location → Prop) (grows : Grows written before after)
    (path : String) (directory : before.isDirectory path = true) : after.isDirectory path = true := by
  rw [is_directory_iff] at directory ⊢
  obtain ⟨location, inspected⟩ := directory
  obtain ⟨located, _⟩ := (inspect_ok_iff before path location _).mp inspected
  have held := (inspect_target free path location _ inspected).2
  exact ⟨_, inspect_extends free written grows path _ ((locate_ok_iff before path location).mp located)
    (fun _ _ same => by cases same) .directory (fun _ same => by cases same) (grows.directories _ held)⟩

theorem open_grows (free : LinkFree before) (written : Location → Prop) (grows : Grows written before after)
    (path : String) (file : File) (away : ¬ written (before.target path))
    (opened : before.openFile path = .ok file) : after.openFile path = .ok file := by
  rw [open_ok_iff] at opened ⊢
  obtain ⟨location, inspected⟩ := opened
  obtain ⟨located, _⟩ := (inspect_ok_iff before path location _).mp inspected
  have held := (inspect_target free path location _ inspected).2
  exact ⟨_, inspect_extends free written grows path _ ((locate_ok_iff before path location).mp located)
    (fun _ _ same => by cases same) (.file file) (fun _ same => by cases same) ((grows.files _ away file).mpr held)⟩

end LinkFree

theorem inspect_names (tree : FileTree) (path : String) (names : List Name) (node : Node)
    (faultless : pathFault? path = none) (steps : (Route.ofText path).steps = names.map Step.name)
    (flat : (Route.ofText path).slash = false) (short : ∀ name ∈ names, name.text.utf8ByteSize ≤ nameLimit)
    (plain : ∀ target, node ≠ .link target)
    (held : tree.get? (names.reverse ++ tree.start (Route.ofText path)) = some node) :
    tree.inspect path = .ok (names.reverse ++ tree.start (Route.ofText path), node) := by
  rw [inspect_ok_iff, locate_ok_iff, resolve_ok_iff, steps, flat]
  exact ⟨⟨faultless, walk_names tree true linkLimit _ names node plain short held⟩, held⟩

theorem target_join_empty (tree : FileTree) (path : String) : tree.target (Path.join path "") = tree.target path := by
  have none : (Route.ofText "").steps = [] := by decide
  rw [target, target, Route.steps_join path "" (by decide), none, List.append_nil, start, start,
    Route.absolute_join path "" (by decide)]

theorem is_directory_join_empty (tree : FileTree) (free : LinkFree tree) (base : String)
    (directory : tree.isDirectory base = true) (faultless : pathFault? (Path.join base "") = none) :
    tree.isDirectory (Path.join base "") = true := by
  obtain ⟨location, inspected⟩ := (is_directory_iff tree base).mp directory
  obtain ⟨located, held⟩ := (inspect_ok_iff tree base location _).mp inspected
  obtain ⟨_, walked⟩ := (resolve_ok_iff tree true base _).mp ((locate_ok_iff tree base _).mp located)
  have none : (Route.ofText "").steps = [] := by decide
  refine (is_directory_iff tree _).mpr ⟨location, ?_⟩
  rw [inspect_ok_iff, locate_ok_iff, resolve_ok_iff, Route.steps_join base "" (by decide),
    none, start, Route.absolute_join base "" (by decide), ← start]
  refine ⟨⟨faultless, ?_⟩, held⟩
  rw [walk_append tree free true linkLimit _ _ _ _ _ _ walked held, walk_nil]

def below (base : String) (names : List Name) : String := names.foldl (fun path name => Path.join path name.text) base

theorem below_snoc (base : String) (names : List Name) (name : Name) :
    below base (names ++ [name]) = Path.join (below base names) name.text := by
  rw [below, List.foldl_append]
  rfl

theorem below_steps (base : String) (names : List Name) :
    (Route.ofText (below base names)).steps = (Route.ofText base).steps ++ names.map Step.name := by
  induction names generalizing base with
  | nil => simp [below]
  | cons name rest ih =>
      rw [below, List.foldl_cons]
      refine (ih (Path.join base name.text)).trans ?_
      rw [Route.steps_join base name.text name.plain, Route.steps_name, List.append_assoc]
      rfl

theorem below_absolute (base : String) (names : List Name) :
    (Route.ofText (below base names)).absolute = (Route.ofText base).absolute := by
  induction names generalizing base with
  | nil => rfl
  | cons name rest ih => exact (ih (Path.join base name.text)).trans (Route.absolute_join base name.text name.plain)

theorem below_slash (base : String) (names : List Name) (inner : names ≠ []) :
    (Route.ofText (below base names)).slash = false := by
  rw [← List.dropLast_concat_getLast inner, below_snoc,
    Route.slash_join _ _ (Name.plain _) (Name.nonempty _)]
  simp only [Route.ofText, beq_eq_false_iff_ne]
  intro slash
  exact Name.slashless _ (List.mem_of_getLast? slash)

theorem below_nonempty (base : String) (names : List Name) (inner : base ≠ "" ∨ names ≠ []) : below base names ≠ "" := by
  cases names with
  | nil => exact inner.resolve_right (fun some => some rfl)
  | cons name rest =>
      intro empty
      have steps := below_steps base (name :: rest)
      rw [empty, show (Route.ofText "").steps = [] by decide] at steps
      simp at steps

theorem target_below (tree : FileTree) (base : String) (names : List Name) :
    tree.target (below base names) = names.reverse ++ tree.target base := by
  rw [target, below_steps, place_append, place_names, start, below_absolute]
  rfl

theorem resolve_below (tree : FileTree) (free : LinkFree tree) (base : String)
    (directory : tree.isDirectory base = true) (names : List Name) (inner : names ≠ []) (spot : Spot) :
    tree.resolve true (below base names) = .ok spot ↔ pathFault? (below base names) = none ∧
      tree.walk true linkLimit (tree.target base) (names.map Step.name) false = .ok spot := by
  obtain ⟨location, inspected⟩ := (is_directory_iff tree base).mp directory
  obtain ⟨rfl, here⟩ := inspect_target free base location _ inspected
  obtain ⟨located, _⟩ := (inspect_ok_iff tree base _ _).mp inspected
  obtain ⟨_, walked⟩ := (resolve_ok_iff tree true base _).mp ((locate_ok_iff tree base _).mp located)
  have startSame : tree.start (Route.ofText (below base names)) = tree.start (Route.ofText base) := by
    rw [start, start, below_absolute]
  rw [resolve_ok_iff, below_steps, below_slash base names inner, startSame,
    walk_append tree free true linkLimit _ _ _ _ _ false walked here]

def Spelled (base : String) (names : List Name) : Prop :=
  pathFault? (below base names) = none ∧ ∀ name ∈ names, name.text.utf8ByteSize ≤ nameLimit

theorem inspect_spelled (tree : FileTree) (free : LinkFree tree) (base : String) (names : List Name) (location : Location)
    (node : Node) (inspected : tree.inspect (below base names) = .ok (location, node)) : Spelled base names := by
  obtain ⟨located, _⟩ := (inspect_ok_iff tree _ location node).mp inspected
  obtain ⟨faultless, walked⟩ := (resolve_ok_iff tree true _ _).mp ((locate_ok_iff tree _ location).mp located)
  rw [below_steps] at walked
  refine ⟨faultless, ?_⟩
  intro name member
  exact walk_short tree free true linkLimit _ _ _ _ walked name (List.mem_append_right _ (List.mem_map_of_mem member))

theorem inspect_below (tree : FileTree) (free : LinkFree tree) (base : String) (directory : tree.isDirectory base = true)
    (names : List Name) (inner : names ≠ []) (spelled : Spelled base names) (node : Node)
    (held : tree.get? (names.reverse ++ tree.target base) = some node) :
    tree.inspect (below base names) = .ok (names.reverse ++ tree.target base, node) := by
  have plain : ∀ linked, node ≠ .link linked := by
    intro linked same
    exact free _ linked (same ▸ held)
  rw [inspect_ok_iff, locate_ok_iff, resolve_below tree free base directory names inner]
  exact ⟨⟨spelled.1, walk_names tree true linkLimit _ names node plain spelled.2 held⟩, held⟩

theorem open_below_iff (tree : FileTree) (free : LinkFree tree) (base : String)
    (directory : tree.isDirectory base = true) (names : List Name) (inner : names ≠ []) (file : File) :
    tree.openFile (below base names) = .ok file ↔
      Spelled base names ∧ tree.get? (names.reverse ++ tree.target base) = some (.file file) := by
  constructor
  · intro opened
    obtain ⟨location, inspected⟩ := (open_ok_iff tree _ file).mp opened
    have held := open_target free _ file opened
    rw [target_below] at held
    exact ⟨inspect_spelled tree free base names location _ inspected, held⟩
  · rintro ⟨spelled, held⟩
    exact (open_ok_iff tree _ file).mpr ⟨_, inspect_below tree free base directory names inner spelled (.file file) held⟩

end Showcase.FileTree
