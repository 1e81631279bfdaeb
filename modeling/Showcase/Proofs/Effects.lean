import Showcase.Proofs.Inspect

set_option autoImplicit false

namespace Showcase.FileTree

section Run

variable {ε α β : Type}

theorem run_bind (effect : Effect ε α) (next : α → Effect ε β) (tree : FileTree) :
    (effect >>= next).run tree =
      match effect.run tree with
      | (.ok value, middle) => (next value).run middle
      | (.error error, middle) => (.error error, middle) := by
  change (match effect.run tree with
    | (result, middle) => ExceptT.bindCont next result middle) = _
  cases effect.run tree with
  | mk result middle => cases result <;> rfl

theorem run_bind_ok (effect : Effect ε α) (next : α → Effect ε β) (tree final : FileTree) (result : β)
    (done : (effect >>= next).run tree = (.ok result, final)) :
    ∃ value middle, effect.run tree = (.ok value, middle) ∧ (next value).run middle = (.ok result, final) := by
  rw [run_bind] at done
  cases first : effect.run tree with
  | mk outcome middle =>
      rw [first] at done
      cases outcome with
      | ok value => exact ⟨value, middle, rfl, done⟩
      | error error => cases done

theorem run_bind_value (effect : Effect ε α) (next : α → Effect ε β) (tree middle : FileTree) (value : α)
    (first : effect.run tree = (.ok value, middle)) : (effect >>= next).run tree = (next value).run middle := by
  rw [run_bind, first]

theorem run_get (next : FileTree → Effect ε α) (tree : FileTree) : (get >>= next).run tree = (next tree).run tree :=
  run_bind_value get next tree tree tree rfl

theorem run_try (effect : Effect ε α) (handler : ε → Effect ε α) (tree : FileTree) :
    (tryCatch effect handler).run tree =
      match effect.run tree with
      | (.ok value, middle) => (.ok value, middle)
      | (.error error, middle) => (handler error).run middle := by
  change (match effect.run tree with
    | (result, middle) => (match result with
      | .ok value => pure (.ok value)
      | .error error => handler error : StateM FileTree (Except ε α)) middle) = _
  cases effect.run tree with
  | mk result middle => cases result <;> rfl

/-- What an effect keeps, also where it fails on the way. -/
def Preserves (holds : FileTree → Prop) (effect : Effect ε α) : Prop := ∀ tree, holds tree → holds (effect.run tree).2

theorem bind_keeps (holds : FileTree → Prop) (effect : Effect ε α) (next : α → Effect ε β) (tree : FileTree)
    (first : holds (effect.run tree).2)
    (rest : ∀ value middle, effect.run tree = (.ok value, middle) → holds middle → holds ((next value).run middle).2) :
    holds ((effect >>= next).run tree).2 := by
  rw [run_bind]
  cases result : effect.run tree with
  | mk outcome middle =>
      rw [result] at first
      cases outcome with
      | ok value => exact rest value middle result first
      | error error => exact first

theorem preserves_bind (holds : FileTree → Prop) (effect : Effect ε α) (next : α → Effect ε β)
    (first : Preserves holds effect) (rest : ∀ value, Preserves holds (next value)) : Preserves holds (effect >>= next) :=
  fun tree held => bind_keeps holds effect next tree (first tree held) (fun value middle _ => rest value middle)

theorem preserves_try (holds : FileTree → Prop) (effect : Effect ε α) (handler : ε → Effect ε α)
    (first : Preserves holds effect) (rest : ∀ error, Preserves holds (handler error)) :
    Preserves holds (tryCatch effect handler) := by
  intro tree held
  have middleHeld := first tree held
  rw [run_try]
  cases result : effect.run tree with
  | mk outcome middle =>
      rw [result] at middleHeld
      cases outcome with
      | ok value => exact middleHeld
      | error error => exact rest error middle middleHeld

theorem preserves_pure (holds : FileTree → Prop) (value : α) : Preserves holds (pure value : Effect ε α) :=
  fun _ held => held

theorem preserves_throw (holds : FileTree → Prop) (error : ε) : Preserves holds (throw error : Effect ε α) :=
  fun _ held => held

theorem preserves_get (holds : FileTree → Prop) : Preserves holds (get : Effect ε FileTree) := fun _ held => held

def Growing (effect : Effect ε α) : Prop := ∀ tree, Grows Untouched tree (effect.run tree).2

theorem growing_preserves (effect : Effect ε α) (growing : Growing effect) (written : Location → Prop) (start : FileTree) :
    Preserves (Grows written start) effect :=
  fun tree grown => grows_trans _ start tree _ grown (grows_untouched _ tree _ (growing tree))

end Run

theorem vacancy_parts (tree : FileTree) (path : String) (location : Location)
    (vacant : tree.vacancy path = .ok location) :
    pathFault? path = none ∧ ∃ before name parent, (Route.ofText path).steps = before ++ [.name name] ∧
      name.text.utf8ByteSize ≤ nameLimit ∧
      tree.walk true linkLimit (tree.start (Route.ofText path)) (before ++ [.stay]) false = .ok (.found parent) ∧
      location = name :: parent ∧ tree.get? (name :: parent) = none := by
  unfold vacancy at vacant
  cases faulty : pathFault? path with
  | some fault => simp [faulty] at vacant
  | none =>
      refine ⟨rfl, ?_⟩
      cases last : (Route.ofText path).steps.getLast? with
      | none => simp [faulty, last] at vacant
      | some step =>
          simp only [faulty, last] at vacant
          obtain ⟨before, split⟩ := List.getLast?_eq_some_iff.mp last
          rw [split, List.dropLast_concat] at vacant
          cases walked : tree.walk true linkLimit (tree.start (Route.ofText path)) (before ++ [.stay]) false with
          | error fault =>
              rw [walked] at vacant
              cases vacant
          | ok spot =>
              rw [walked] at vacant
              cases spot with
              | missing parent name slash => cases vacant
              | found parent =>
                  cases step with
                  | stay => cases vacant
                  | up => cases vacant
                  | name name =>
                      by_cases long : nameLimit < name.text.utf8ByteSize
                      · simp [bind, Except.bind, long, throw, throwThe, MonadExceptOf.throw] at vacant
                      · cases held : tree.get? (name :: parent) with
                        | some node =>
                            simp [bind, Except.bind, long, held, throw, throwThe, MonadExceptOf.throw] at vacant
                        | none =>
                            simp only [bind, Except.bind, if_neg long, held, pure, Except.pure, Option.isSome_none,
                              Bool.false_eq_true, if_false, Except.ok.injEq] at vacant
                            exact ⟨before, name, parent, split, Nat.not_lt.mp long, walked, vacant.symm, held⟩

theorem vacancy_free (tree : FileTree) (path : String) (location : Location) (vacant : tree.vacancy path = .ok location) :
    tree.get? location = none := by
  obtain ⟨_, _, name, parent, _, _, _, rfl, absent⟩ := vacancy_parts tree path location vacant
  exact absent

theorem vacancy_target (tree : FileTree) (free : LinkFree tree) (path : String) (location : Location)
    (vacant : tree.vacancy path = .ok location) : location = tree.target path := by
  obtain ⟨_, before, name, parent, split, _, walked, rfl, _⟩ := vacancy_parts tree path location vacant
  have above : parent = place _ _ := walk_place tree free true linkLimit _ _ _ _ walked
  rw [place_append] at above
  rw [target, split, place_append, above]
  rfl

theorem run_attempt {ε α : Type} (result : Except ε α) (tree : FileTree) :
    (liftM result : Effect ε α).run tree = (result, tree) := by
  cases result <;> rfl

theorem make_directory_run (tree : FileTree) (path : String) :
    (makeDirectory path).run tree =
      match tree.vacancy path with
      | .ok location => (.ok (), tree.put location .directory)
      | .error fault => (.error fault, tree) := by
  have unfolded : (makeDirectory path).run tree =
      ((liftM (tree.vacancy path) : Effect IoFault Location) >>= fun location =>
        set (tree.put location .directory)).run tree := rfl
  rw [unfolded, run_bind, run_attempt]
  cases tree.vacancy path <;> rfl

theorem make_directory_growing (path : String) : Growing (makeDirectory path) := by
  intro tree
  rw [make_directory_run]
  cases vacant : tree.vacancy path with
  | error fault => exact grows_refl Untouched tree
  | ok location => exact put_directory_grows tree location (vacancy_free tree path location vacant)

theorem ensure_directory_preserves (holds : FileTree → Prop) (path : String)
    (makes : Preserves holds (makeDirectory path)) : Preserves holds (ensureDirectory path) := by
  unfold ensureDirectory
  refine preserves_try _ _ _ makes (fun fault => preserves_bind _ _ _ (preserves_get _) (fun tree => ?_))
  cases tree.isDirectory path with
  | true => exact preserves_pure _ ()
  | false => exact preserves_throw _ fault

theorem ensure_rounds_preserves (holds : FileTree → Prop) (covered : String → Prop)
    (makes : ∀ path, covered path → Preserves holds (makeDirectory path))
    (parents : ∀ path parent, Path.parent? path = some parent → covered path → covered parent) (rounds : Nat)
    (path : String) (known : covered path) : Preserves holds (ensureRounds rounds path) := by
  induction rounds generalizing path with
  | zero => exact preserves_throw _ IoFault.notFound
  | succ rounds ih =>
      have once := ensure_directory_preserves holds path (makes path known)
      unfold ensureRounds
      by_cases empty : path.isEmpty = true
      · rw [if_pos empty]
        exact preserves_pure _ ()
      · rw [if_neg empty]
        refine preserves_try _ _ _ once (fun fault => ?_)
        split
        · rename_i parent above
          exact preserves_bind _ _ _ (ih parent (parents path parent above known)) (fun _ => once)
        · exact preserves_throw _ _

theorem ensure_directories_growing (path : String) : Growing (ensureDirectories path) := by
  intro tree
  refine ensure_rounds_preserves (Grows Untouched tree) (fun _ => True) ?_ (fun _ _ _ _ => trivial) (path.length + 1) path
    trivial tree (grows_refl _ tree)
  exact fun path _ => growing_preserves _ (make_directory_growing path) Untouched tree

theorem ensure_existing (tree : FileTree) (free : LinkFree tree) (path : String)
    (present : tree.isDirectory path = true) : (ensureDirectories path).run tree = (.ok (), tree) := by
  have nonempty : ¬ path.isEmpty = true :=
    fun empty => directory_nonempty tree path present (String.isEmpty_iff.mp empty)
  have once : (ensureDirectory path).run tree = (.ok (), tree) := by
    unfold ensureDirectory
    rw [run_try, make_directory_run]
    cases vacant : tree.vacancy path with
    | ok location =>
        have absent := vacancy_free tree path location vacant
        obtain ⟨found, inspected⟩ := (is_directory_iff tree path).mp present
        rw [vacancy_target tree free path location vacant, (inspect_target free path found _ inspected).2] at absent
        cases absent
    | error fault =>
        dsimp only
        rw [run_bind]
        change (if tree.isDirectory path = true then pure () else throw fault : Effect IoFault Unit).run tree = _
        rw [if_pos present]
        rfl
  rw [ensureDirectories, ensureRounds, if_neg nonempty, run_try, once]

theorem store_run (tree : FileTree) (path : String) (file : File) :
    (store path file).run tree =
      match tree.writeLocation path with
      | .ok location => (.ok (), tree.put location (.file file))
      | .error fault => (.error fault, tree) := by
  have unfolded : (store path file).run tree =
      ((liftM (tree.writeLocation path) : Effect IoFault Location) >>= fun location =>
        set (tree.put location (.file file))).run tree := rfl
  rw [unfolded, run_bind, run_attempt]
  cases tree.writeLocation path <;> rfl

theorem store_ok_iff (tree after : FileTree) (path : String) (file : File) :
    (store path file).run tree = (.ok (), after) ↔
      ∃ location, tree.writeLocation path = .ok location ∧ after = tree.put location (.file file) := by
  rw [store_run]
  constructor
  · intro stored
    split at stored
    · rename_i location chosen
      cases stored
      exact ⟨location, chosen, rfl⟩
    · cases stored
  · rintro ⟨location, chosen, rfl⟩
    rw [chosen]

theorem write_location_ok (tree : FileTree) (path : String) (location : Location)
    (chosen : tree.writeLocation path = .ok location) :
    (tree.resolve true path = .ok (.found location) ∧
        ∃ content, tree.get? location = some (.file ⟨content, .writable⟩)) ∨
      ∃ parent name, tree.resolve true path = .ok (.missing parent name false) ∧ location = name :: parent := by
  unfold writeLocation at chosen
  cases resolved : tree.resolve true path with
  | error fault =>
      rw [resolved] at chosen
      cases chosen
  | ok spot =>
      rw [resolved] at chosen
      cases spot with
      | missing parent name slash =>
          cases slash with
          | true => cases chosen
          | false => exact .inr ⟨parent, name, rfl, (Except.ok.inj chosen).symm⟩
      | found place =>
          simp only [bind, Except.bind] at chosen
          split at chosen
          · rename_i content held
            cases chosen
            exact .inl ⟨rfl, content, held⟩
          · cases chosen
          · cases chosen

theorem write_location_found (tree : FileTree) (path : String) (location : Location) (content : Bytes)
    (resolved : tree.resolve true path = .ok (.found location))
    (held : tree.get? location = some (.file ⟨content, .writable⟩)) : tree.writeLocation path = .ok location := by
  simp [writeLocation, resolved, bind, Except.bind, held, pure, Except.pure]

theorem store_resolved (tree after : FileTree) (path : String) (file : File)
    (stored : (store path file).run tree = (.ok (), after)) : ∃ spot, tree.resolve true path = .ok spot := by
  obtain ⟨location, chosen, _⟩ := (store_ok_iff tree after path file).mp stored
  rcases write_location_ok tree path location chosen with ⟨resolved, _⟩ | ⟨_, _, resolved, _⟩
  · exact ⟨_, resolved⟩
  · exact ⟨_, resolved⟩

theorem write_location_room (tree : FileTree) (free : LinkFree tree) (path : String) (location : Location) (file : File)
    (chosen : tree.writeLocation path = .ok location) :
    location = tree.target path ∧ tree.hasRoom location (.file file) = true ∧ Replaceable tree location ∧
      ∃ spot, tree.resolve true path = .ok spot ∧ ∀ parent name, spot ≠ .missing parent name true := by
  rcases write_location_ok tree path location chosen with ⟨resolved, old, held⟩ | ⟨parent, name, resolved, rfl⟩
  · have walked := ((resolve_ok_iff tree true path _).mp resolved).2
    refine ⟨walk_place tree free true linkLimit _ _ _ _ walked, ?_, .inr ⟨old, held⟩, _, resolved,
      fun _ _ same => by cases same⟩
    cases location with
    | nil =>
        rw [get_root] at held
        cases held
    | cons name parent => simp [hasRoom, held, parent_directory tree name parent _ held]
  · have walked := ((resolve_ok_iff tree true path _).mp resolved).2
    obtain ⟨_, directory, vacant⟩ := walk_vacant tree free true linkLimit _ _ _ _ _ _ walked
    refine ⟨walk_place tree free true linkLimit _ _ _ _ walked, ?_, .inl vacant, _, resolved,
      fun _ _ same => by cases same⟩
    simp [hasRoom, directory, vacant]

theorem store_ok (tree after : FileTree) (free : LinkFree tree) (path : String) (file : File)
    (stored : (store path file).run tree = (.ok (), after)) :
    Grows (· = tree.target path) tree after ∧ Replaceable tree (tree.target path) ∧ after.openFile path = .ok file := by
  obtain ⟨location, chosen, rfl⟩ := (store_ok_iff tree after path file).mp stored
  obtain ⟨rfl, room, replaceable, spot, resolved, flat⟩ := write_location_room tree free path location file chosen
  have grows := put_file_grows tree _ file replaceable
  refine ⟨grows, replaceable, (open_ok_iff _ path file).mpr ⟨tree.target path, ?_⟩⟩
  refine inspect_extends free _ grows path spot resolved flat (.file file) (fun _ same => by cases same) ?_
  rw [get_put tree _ _ _ room, if_pos rfl]

theorem write_below_run (tree : FileTree) (free : LinkFree tree) (base : String)
    (directory : tree.isDirectory base = true) (name : Name) (content : Bytes)
    (short : name.text.utf8ByteSize ≤ nameLimit) (faultless : pathFault? (below base [name]) = none)
    (room : Replaceable tree (name :: tree.target base)) :
    (write (below base [name]) content).run tree =
      (.ok (), tree.put (name :: tree.target base) (.file content)) := by
  obtain ⟨location, inspected⟩ := (is_directory_iff tree base).mp directory
  have here := (inspect_target free base location _ inspected).2
  have resolved := fun spot => resolve_below tree free base directory [name] (by simp) spot
  refine (store_ok_iff tree _ _ _).mpr ⟨name :: tree.target base, ?_, rfl⟩
  rcases room with vacant | ⟨old, held⟩
  · rw [writeLocation,
      (resolved _).mpr ⟨faultless, walk_missing tree true linkLimit _ false name short here vacant⟩]
    rfl
  · exact write_location_found tree _ _ old
      ((resolved _).mpr ⟨faultless, walk_file tree true linkLimit _ name _ short here held⟩) held

theorem copy_run (tree : FileTree) (source path : String) :
    (copy source path).run tree =
      match tree.openFile source, tree.writeLocation path with
      | .error fault, _ => (.error fault, tree)
      | .ok _, .error fault => (.error fault, tree)
      | .ok file, .ok location =>
        let emptied := tree.put location (.file ⟨[], file.access⟩)
        match emptied.read source with
        | .error fault => (.error fault, emptied)
        | .ok content => (.ok (), tree.put location (.file ⟨content, file.access⟩)) := by
  rw [copy, run_get]
  refine (run_bind (liftM (tree.openFile source)) _ tree).trans ?_
  rw [run_attempt]
  cases tree.openFile source with
  | error fault => rfl
  | ok file =>
      refine (run_bind (liftM (tree.writeLocation path)) _ tree).trans ?_
      rw [run_attempt]
      cases tree.writeLocation path with
      | error fault => rfl
      | ok location =>
          refine (run_bind_value (set _) _ tree _ PUnit.unit rfl).trans ?_
          refine (run_bind (liftM (FileTree.read _ source)) _ _).trans ?_
          rw [run_attempt]
          dsimp only
          cases (tree.put location (.file ⟨[], file.access⟩)).read source <;> rfl

theorem copy_ok_iff (tree after : FileTree) (source path : String) :
    (copy source path).run tree = (.ok (), after) ↔ ∃ file emptied content, tree.openFile source = .ok file ∧
      (store path ⟨[], file.access⟩).run tree = (.ok (), emptied) ∧ emptied.read source = .ok content ∧
      (store path ⟨content, file.access⟩).run tree = (.ok (), after) := by
  rw [copy_run]
  simp only [store_ok_iff]
  constructor
  · intro copied
    split at copied
    · cases copied
    · cases copied
    · rename_i file location opened chosen
      split at copied
      · cases copied
      · rename_i content read
        cases copied
        exact ⟨file, _, content, opened, ⟨location, chosen, rfl⟩, read, location, chosen, rfl⟩
  · rintro ⟨file, _, content, opened, ⟨location, chosen, rfl⟩, read, _, again, rfl⟩
    rw [chosen] at again
    cases again
    simp only [opened, chosen, read]

theorem copy_ok (tree after : FileTree) (free : LinkFree tree) (source path : String)
    (copied : (copy source path).run tree = (.ok (), after)) :
    (∃ file, tree.openFile source = .ok file ∧
        (tree.target source ≠ tree.target path → after.openFile path = .ok file)) ∧
      Replaceable tree (tree.target path) ∧ Grows (· = tree.target path) tree after := by
  obtain ⟨file, emptied, content, opened, first, read, last⟩ := (copy_ok_iff tree after source path).mp copied
  obtain ⟨cleared, _⟩ := store_ok tree emptied free path _ first
  obtain ⟨filled, replaceable, stored⟩ := store_ok tree after free path _ last
  refine ⟨⟨file, opened, fun apart => ?_⟩, replaceable, filled⟩
  have kept := open_read emptied source file (open_grows free _ cleared source file apart opened)
  rw [read] at kept
  cases kept
  exact stored

theorem copy_keeps (holds : FileTree → Prop) (source path : String) (tree : FileTree) (held : holds tree)
    (stores : ∀ file, tree.openFile source = .ok file → ∀ content,
      holds ((store path ⟨content, file.access⟩).run tree).2) : holds ((copy source path).run tree).2 := by
  rw [copy_run]
  simp only [store_run] at stores
  cases opened : tree.openFile source with
  | error fault => exact held
  | ok file =>
      have kept := stores file opened
      cases chosen : tree.writeLocation path with
      | error fault => exact held
      | ok location =>
          rw [chosen] at kept
          dsimp only
          split
          · exact kept []
          · exact kept _

end Showcase.FileTree
