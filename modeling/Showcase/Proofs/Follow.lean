import Showcase.Proofs.Effects

set_option autoImplicit false

namespace Showcase.FileTree

inductive Leads (tree : FileTree) : Nat → Location → List Step → Bool → Spot → Prop where
  | here (links : Nat) (location : Location) (slash : Bool) : Leads tree links location [] slash (.found location)
  | move (links : Nat) (location : Location) (step : Step) (rest : List Step) (slash : Bool) (spot : Spot)
      (plain : step = .stay ∨ step = .up) (directory : tree.get? location = some .directory)
      (onward : Leads tree links (advance location step) rest slash spot) :
      Leads tree links location (step :: rest) slash spot
  | inside (links : Nat) (location : Location) (name : Name) (rest : List Step) (slash : Bool) (spot : Spot)
      (directory : tree.get? location = some .directory) (short : name.text.utf8ByteSize ≤ nameLimit)
      (held : tree.get? (name :: location) = some .directory)
      (onward : Leads tree links (name :: location) rest slash spot) :
      Leads tree links location (.name name :: rest) slash spot
  | file (links : Nat) (location : Location) (name : Name) (file : File)
      (held : tree.get? (name :: location) = some (.file file)) :
      Leads tree links location [.name name] false (.found (name :: location))
  | vacant (links : Nat) (location : Location) (name : Name) (slash : Bool)
      (absent : tree.get? (name :: location) = none) :
      Leads tree links location [.name name] slash (.missing location name slash)
  | link (links : Nat) (location : Location) (name : Name) (target : String) (rest : List Step) (slash : Bool)
      (spot : Spot) (directory : tree.get? location = some .directory) (short : name.text.utf8ByteSize ≤ nameLimit)
      (held : tree.get? (name :: location) = some (.link target))
      (onward : Leads tree links (if (Route.ofText target).absolute then [] else location)
        ((Route.ofText target).steps ++ rest) (slash || (rest.isEmpty && (Route.ofText target).slash)) spot) :
      Leads tree (links + 1) location (.name name :: rest) slash spot

theorem walk_leads (tree : FileTree) (links : Nat) (location : Location) (steps : List Step) (slash : Bool) (spot : Spot)
    (walked : tree.walk true links location steps slash = .ok spot) : Leads tree links location steps slash spot := by
  -- The outer induction is on the links that may be followed, the inner one on the steps up to the next link.
  induction links using Nat.strong_induction_on generalizing location steps slash with
  | _ links fewer =>
      induction steps generalizing location slash with
      | nil =>
          rw [walk_nil] at walked
          cases Except.ok.inj walked
          exact .here links location slash
      | cons step rest ih =>
          obtain ⟨directory, moved | ⟨name, rfl, short, inside | file | vacant | ⟨target, held, kept | followed⟩⟩⟩ :=
            walk_first tree true links location rest slash step spot walked
          · exact .move links location step rest slash spot moved.1 directory (ih _ _ moved.2)
          · exact .inside links location name rest slash spot directory short inside.1 (ih _ _ inside.2)
          · obtain ⟨⟨found, held⟩, rfl, rfl, rfl⟩ := file
            exact .file links location name found held
          · obtain ⟨absent, rfl, rfl⟩ := vacant
            exact .vacant links location name slash absent
          · cases kept.1
          · obtain ⟨left, rfl, behind⟩ := followed
            exact .link left location name target rest slash spot directory short held
              (fewer left (Nat.lt_succ_self left) _ _ _ behind)

theorem leads_vacant (tree : FileTree) (links : Nat) (location : Location) (steps : List Step) (slash flag : Bool)
    (parent : Location) (name : Name) (leads : Leads tree links location steps slash (.missing parent name flag)) :
    tree.get? (name :: parent) = none := by
  generalize reached : Spot.missing parent name flag = spot at leads
  induction leads with
  | here => cases reached
  | move _ _ _ _ _ _ _ _ _ ih => exact ih reached
  | inside _ _ _ _ _ _ _ _ _ _ ih => exact ih reached
  | file => cases reached
  | vacant _ _ _ _ absent =>
      cases reached
      exact absent
  | link _ _ _ _ _ _ _ _ _ _ _ ih => exact ih reached

section Grows

variable {written : Location → Prop} {before after : FileTree}

theorem leads_enters (grows : Grows written before after) (links : Nat) (location middle : Location)
    (first : List Step) (slash : Bool) (leads : Leads before links location first slash (.found middle))
    (directory : before.get? middle = some .directory) :
    ∃ left, ∀ rest flag, after.walk true links location (first ++ rest) flag = after.walk true left middle rest flag := by
  generalize reached : Spot.found middle = spot at leads
  -- Whether a slash is wanted does not matter behind a directory, so the flags of the two walks may differ.
  induction leads with
  | here links location slash =>
      cases reached
      exact ⟨links, fun _ _ => rfl⟩
  | move links location step others slash spot plain here _ ih =>
      obtain ⟨left, same⟩ := ih reached
      refine ⟨left, fun rest flag => ?_⟩
      rw [List.cons_append, ← same rest flag]
      rcases plain with rfl | rfl
      · exact walk_stay after true links location _ flag (grows.directories location here)
      · exact walk_up after true links location _ flag (grows.directories location here)
  | inside links location name others slash spot here short held _ ih =>
      obtain ⟨left, same⟩ := ih reached
      refine ⟨left, fun rest flag => ?_⟩
      rw [List.cons_append, ← same rest flag]
      exact walk_directory after true links location _ flag name short (grows.directories location here)
        (grows.directories _ held)
  | file links location name content held =>
      cases reached
      rw [directory] at held
      cases held
  | vacant => cases reached
  | link links location name target others slash spot here short held _ ih =>
      obtain ⟨left, same⟩ := ih reached
      refine ⟨left, fun rest flag => ?_⟩
      rw [List.cons_append, walk_link after links location _ flag name target short (grows.directories location here)
        ((grows.links _ target).mpr held), ← List.append_assoc, same]
      cases rest with
      | nil => rw [walk_nil, walk_nil]
      | cons next later =>
          have more : (others ++ next :: later).isEmpty = false := by simp
          rw [more, Bool.false_and, Bool.or_false]

theorem inspect_directory_grows (grows : Grows written before after) (path : String) (location : Location)
    (inspected : before.inspect path = .ok (location, .directory)) : after.inspect path = .ok (location, .directory) := by
  obtain ⟨located, held⟩ := (inspect_ok_iff before path location _).mp inspected
  obtain ⟨faultless, walked⟩ := (resolve_ok_iff before true path _).mp ((locate_ok_iff before path location).mp located)
  obtain ⟨left, same⟩ := leads_enters grows _ _ _ _ _ (walk_leads before _ _ _ _ _ walked) held
  have again := same [] (Route.ofText path).slash
  rw [List.append_nil, walk_nil, start_congr before after grows.current.symm] at again
  exact (inspect_ok_iff after path location _).mpr
    ⟨(locate_ok_iff after path location).mpr ((resolve_ok_iff after true path _).mpr ⟨faultless, again⟩),
      grows.directories location held⟩

end Grows

theorem leads_stay (tree : FileTree) (links : Nat) (location middle : Location) (first : List Step) (slash : Bool)
    (leads : Leads tree links location (first ++ [.stay]) slash (.found middle)) :
    tree.get? middle = some .directory ∧ ∀ flag, Leads tree links location first flag (.found middle) := by
  generalize whole : first ++ [Step.stay] = steps at leads
  generalize reached : Spot.found middle = spot at leads
  induction leads generalizing first with
  | here => simp at whole
  | move links location step rest slash spot plain directory onward ih =>
      cases first with
      | nil =>
          obtain ⟨rfl, rfl⟩ := List.cons.inj whole
          cases onward
          cases reached
          exact ⟨directory, fun flag => .here links location flag⟩
      | cons other others =>
          obtain ⟨rfl, same⟩ := List.cons.inj whole
          obtain ⟨ends, leads⟩ := ih others same reached
          exact ⟨ends, fun flag => .move links location other others flag _ plain directory (leads flag)⟩
  | inside links location name rest slash spot directory short held onward ih =>
      cases first with
      | nil => cases (List.cons.inj whole).1
      | cons other others =>
          obtain ⟨rfl, same⟩ := List.cons.inj whole
          obtain ⟨ends, leads⟩ := ih others same reached
          exact ⟨ends, fun flag => .inside links location name others flag _ directory short held (leads flag)⟩
  | file =>
      cases first with
      | nil => cases (List.cons.inj whole).1
      | cons other others => simp at whole
  | vacant => cases reached
  | link links location name target rest slash spot directory short held onward ih =>
      cases first with
      | nil => cases (List.cons.inj whole).1
      | cons other others =>
          obtain ⟨rfl, same⟩ := List.cons.inj whole
          have behind : (Route.ofText target).steps ++ others ++ [.stay] = (Route.ofText target).steps ++ rest := by
            rw [List.append_assoc]
            exact congrArg _ same
          obtain ⟨ends, leads⟩ := ih ((Route.ofText target).steps ++ others) behind reached
          exact ⟨ends, fun flag => .link links location name target others flag _ directory short held (leads _)⟩

theorem make_directory_ok (tree after : FileTree) (path : String)
    (made : (makeDirectory path).run tree = (.ok (), after)) : after.isDirectory path = true := by
  rw [make_directory_run] at made
  cases vacant : tree.vacancy path with
  | error fault =>
      rw [vacant] at made
      cases made
  | ok location =>
      rw [vacant] at made
      obtain ⟨faultless, steps, name, parent, split, short, walked, rfl, absent⟩ := vacancy_parts tree path location vacant
      have result : after = tree.put (name :: parent) .directory := (Prod.mk.inj made).2.symm
      subst result
      have grows := put_directory_grows tree (name :: parent) absent
      obtain ⟨directory, leads⟩ := leads_stay tree _ _ _ _ _ (walk_leads tree _ _ _ _ _ walked)
      obtain ⟨left, same⟩ := leads_enters grows _ _ _ _ _ (leads false) directory
      have held : (tree.put (name :: parent) .directory).get? (name :: parent) = some .directory := by
        rw [get_put tree _ _ _ (by simp [hasRoom, directory]), if_pos rfl]
      have arrived := same [.name name] (Route.ofText path).slash
      rw [← split, walk_directory _ true left parent [] _ name short (grows.directories parent directory) held, walk_nil,
        start_congr tree _ grows.current.symm] at arrived
      refine (is_directory_iff _ path).mpr ⟨name :: parent, (inspect_ok_iff _ path _ _).mpr ⟨?_, held⟩⟩
      exact (locate_ok_iff _ path _).mpr ((resolve_ok_iff _ true path _).mpr ⟨faultless, arrived⟩)

theorem ensure_directory_ok (tree after : FileTree) (path : String)
    (ensured : (ensureDirectory path).run tree = (.ok (), after)) : after.isDirectory path = true := by
  unfold ensureDirectory at ensured
  rw [run_try] at ensured
  cases made : (makeDirectory path).run tree with
  | mk result middle =>
      rw [made] at ensured
      cases result with
      | ok value =>
          cases ensured
          exact make_directory_ok tree after path made
      | error fault =>
          dsimp only at ensured
          rw [run_get] at ensured
          cases present : middle.isDirectory path with
          | true =>
              rw [present] at ensured
              cases ensured
              exact present
          | false =>
              rw [present] at ensured
              cases ensured

theorem ensure_directories_ok (tree after : FileTree) (path : String) (nonempty : path ≠ "")
    (ensured : (ensureDirectories path).run tree = (.ok (), after)) : after.isDirectory path = true := by
  have inner : ¬ path.isEmpty = true := fun empty => nonempty (String.isEmpty_iff.mp empty)
  rw [ensureDirectories, ensureRounds, if_neg inner, run_try] at ensured
  cases first : (ensureDirectory path).run tree with
  | mk result middle =>
      rw [first] at ensured
      cases result with
      | ok value =>
          cases ensured
          exact ensure_directory_ok tree after path first
      | error fault =>
          dsimp only at ensured
          split at ensured
          · obtain ⟨_, above, _, last⟩ := run_bind_ok _ _ middle after () ensured
            exact ensure_directory_ok above after path last
          · cases ensured

/-- Below a directory that a path led to before, only the names matter, however many links the path follows. -/
theorem resolve_through {written : Location → Prop} {before after : FileTree} (grows : Grows written before after)
    (base : String) (site : Location) (inspected : before.inspect base = .ok (site, .directory)) (names : List Name)
    (inner : names ≠ []) :
    ∃ left, ∀ spot, after.resolve true (below base names) = .ok spot →
      after.walk true left site (names.map Step.name) false = .ok spot := by
  obtain ⟨located, held⟩ := (inspect_ok_iff before base site _).mp inspected
  obtain ⟨_, walked⟩ := (resolve_ok_iff before true base _).mp ((locate_ok_iff before base site).mp located)
  obtain ⟨left, same⟩ := leads_enters grows _ _ _ _ _ (walk_leads before _ _ _ _ _ walked) held
  refine ⟨left, fun spot resolved => ?_⟩
  have behind := ((resolve_ok_iff after true _ spot).mp resolved).2
  have startSame : after.start (Route.ofText (below base names)) = before.start (Route.ofText base) := by
    rw [start, start, below_absolute, grows.current]
  rwa [below_steps, below_slash base names inner, startSame, same] at behind

def Unlinked (tree : FileTree) (site : Location) : Prop :=
  ∀ place target, tree.get? place = some (.link target) → ¬ site <:+ place

theorem walk_unlinked (tree : FileTree) (links : Nat) (site : Location) (unlinked : Unlinked tree site)
    (names : List Name) (slash : Bool) (spot : Spot)
    (walked : tree.walk true links site (names.map Step.name) slash = .ok spot) :
    spot.location = names.reverse ++ site := by
  induction names generalizing site with
  | nil =>
      rw [List.map_nil, walk_nil] at walked
      rw [← Except.ok.inj walked]
      rfl
  | cons name rest ih =>
      rw [List.reverse_cons, List.append_assoc, List.singleton_append]
      obtain ⟨_, moved | ⟨other, same, _, inside | file | vacant | ⟨target, held, _⟩⟩⟩ :=
        walk_first tree true links site (rest.map Step.name) slash (.name name) spot walked
      · rcases moved.1 with same | same <;> cases same
      · cases same
        refine ih (name :: site) (fun place target held below => ?_) inside.2
        exact unlinked place target held ((List.suffix_cons name site).trans below)
      · cases same
        obtain ⟨_, last, _, rfl⟩ := file
        rw [List.map_eq_nil_iff.mp last]
        rfl
      · cases same
        obtain ⟨_, last, rfl⟩ := vacant
        rw [List.map_eq_nil_iff.mp last]
        rfl
      · cases same
        exact absurd (List.suffix_cons name site) (unlinked _ target held)

theorem store_grows (tree : FileTree) (path : String) (file : File) :
    Grows (fun place => tree.writeLocation path = .ok place) tree ((store path file).run tree).2 := by
  rw [store_run]
  cases chosen : tree.writeLocation path with
  | error fault => exact grows_refl _ tree
  | ok location =>
      have replaceable : Replaceable tree location := by
        rcases write_location_ok tree path location chosen with ⟨_, held⟩ | ⟨parent, name, resolved, rfl⟩
        · exact .inr held
        · have walked := ((resolve_ok_iff tree true path _).mp resolved).2
          exact .inl (leads_vacant tree _ _ _ _ _ _ _ (walk_leads tree _ _ _ _ _ walked))
      refine grows_mono _ _ tree _ ?_ (put_file_grows tree location file replaceable)
      rintro place rfl
      rfl

theorem store_confined (start : FileTree) (base : String) (site : Location)
    (inspected : start.inspect base = .ok (site, .directory)) (unlinked : Unlinked start site) (names : List Name)
    (inner : names ≠ []) (file : File) : Preserves (Grows (site <:+ ·) start) (store (below base names) file) := by
  intro tree grows
  refine grows_trans _ start tree _ grows (grows_mono _ _ tree _ ?_ (store_grows tree _ file))
  intro place chosen
  obtain ⟨left, through⟩ := resolve_through grows base site inspected names inner
  have treeUnlinked : Unlinked tree site :=
    fun place target held => unlinked place target ((grows.links place target).mp held)
  have here : place = names.reverse ++ site := by
    rcases write_location_ok tree _ place chosen with ⟨resolved, _⟩ | ⟨parent, name, resolved, rfl⟩
    · exact walk_unlinked tree left site treeUnlinked names false _ (through _ resolved)
    · exact walk_unlinked tree left site treeUnlinked names false _ (through _ resolved)
  rw [here]
  exact List.suffix_append _ _

end Showcase.FileTree
