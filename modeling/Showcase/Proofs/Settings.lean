import Showcase.Command.Run
import Showcase.Proofs.Table
/-!
Settings by layers. Every setting is that of the highest layer that sets it, whatever the other settings are; a wrong
mode in the file or in the environment is reported even where a higher layer sets a right one.
-/
set_option autoImplicit false

namespace Showcase.Settings

open Command (Choices)

def resolve (file : Option String) (environment : Environment) (choices : Choices) : Except Failure Settings :=
  (ofSources file environment).map fun settings => settings.apply choices.layer

def textMembers (values : List (String × String)) : Toml.Members := values.map fun value => (value.1, .text value.2)

inductive FileHolds : Option String → List (String × String) → Prop where
  | absent : FileHolds none []
  | document (text : String) (values : List (String × String))
      (parsed : Toml.parse? text = some (textMembers values)) : FileHolds (some text) values

/-- Why there are no settings. Each reason supposes that the ones in front of it do not hold. -/
inductive Rejects (file : Option String) (environment : Environment) : Failure → Prop where
  | file (text : String) (given : file = some text) (unreadable : ∀ values, ¬ FileHolds file values) :
      Rejects file environment
        [.message "failed to parse showcase.toml",
         .document (if (Toml.parse? text).isNone then .malformed else .value .invalidType)]
  | fileMode (values : List (String × String)) (raw : String) (holds : FileHolds file values)
      (set : values.lookup "mode" = some raw) (unknown : DeployMode.ofText? raw = none) :
      Rejects file environment [.error (.invalidDeployMode raw)]
  | environmentMode (values : List (String × String)) (raw : String) (holds : FileHolds file values)
      (known : ∀ earlier, values.lookup "mode" = some earlier → DeployMode.ofText? earlier ≠ none)
      (set : environment "APP__MODE" = some raw) (unknown : DeployMode.ofText? raw = none) :
      Rejects file environment [.error (.invalidDeployMode raw)]

def highest {α : Type} : List (Option α) → Option α
  | [] => none
  | some value :: _ => some value
  | none :: lower => highest lower

structure Resolved (values : List (String × String)) (environment : Environment) (choices : Choices)
    (settings : Settings) : Prop where
  bindAddress : settings.bindAddress = (highest
    [environment "APP__BIND_ADDR", environment "SHOWCASE_BIND", values.lookup "bind_addr"]).getD "127.0.0.1:5173"
  mode : settings.mode = (highest [choices.mode, (environment "APP__MODE").bind DeployMode.ofText?,
    (values.lookup "mode").bind DeployMode.ofText?]).getD .development
  basePath : settings.basePath = highest
    [choices.basePath, environment "APP__BASE_PATH", environment "BASE_URL", values.lookup "base_path"]
  publicDirectory : settings.publicDirectory = (highest
    [choices.publicDirectory, environment "APP__PUBLIC_DIR", values.lookup "public_dir"]).getD "public"
  outputDirectory : settings.outputDirectory = (highest
    [choices.outputDirectory, environment "APP__OUT_DIR", values.lookup "out_dir"]).getD "docs"
  catalogPath : settings.catalogPath = highest
    [choices.catalog, environment "APP__CATALOG_PATH", values.lookup "catalog_path"]
  ownBasePath : ∀ basePath, highest
    [choices.basePath, environment "APP__BASE_PATH", environment "BASE_URL", values.lookup "base_path"] =
      some basePath → settings.deployment = Deployment.ofBasePath basePath
  modeBasePath : highest
    [choices.basePath, environment "APP__BASE_PATH", environment "BASE_URL", values.lookup "base_path"] =
      none → settings.deployment = .ok (Deployment.ofMode settings.mode)

def memberText (member : String × Toml.Value) : Except ValueFault (String × String) :=
  (Toml.text member.2).map (member.1, ·)

theorem texts_mapped (values : List (String × String)) : (textMembers values).mapM memberText = .ok values := by
  induction values with
  | nil => rfl
  | cons value others ih =>
      rw [textMembers, List.map_cons, List.mapM_cons, ← textMembers, ih]
      rfl

theorem texts_unmapped (members : Toml.Members) (other : ∀ values, members ≠ textMembers values) :
    members.mapM memberText = .error .invalidType := by
  induction members with
  | nil => exact absurd rfl (other [])
  | cons member others ih =>
      obtain ⟨key, value⟩ := member
      rw [List.mapM_cons]
      cases value with
      | text content =>
          have behind : ∀ values, others ≠ textMembers values := by
            intro values same
            exact other ((key, content) :: values) (by rw [same]; rfl)
          rw [ih behind]
          rfl
      | integer n => rfl
      | float literal => rfl
      | boolean b => rfl
      | moment literal => rfl
      | array extensible items => rfl
      | table form members => rfl

theorem file_members_readable (text : String) (values : List (String × String))
    (parsed : Toml.parse? text = some (textMembers values)) : fileMembers text = .ok values := by
  rw [fileMembers, parsed]
  change ((textMembers values).mapM memberText).mapError _ = _
  rw [texts_mapped]
  rfl

theorem file_members_unreadable (text : String) (unreadable : ∀ values, ¬ FileHolds (some text) values) :
    fileMembers text = .error (if (Toml.parse? text).isNone then .malformed else .value .invalidType) := by
  rw [fileMembers]
  cases parsed : Toml.parse? text with
  | none => rfl
  | some members =>
      have other : ∀ values, members ≠ textMembers values := by
        intro values same
        exact unreadable values (.document text values (by rw [parsed, same]))
      change (members.mapM memberText).mapError _ = _
      rw [texts_unmapped members other]
      rfl

def fileLayer (values : List (String × String)) (mode : Option DeployMode) : Layer where
  bindAddress := values.lookup "bind_addr"
  mode
  basePath := values.lookup "base_path"
  publicDirectory := values.lookup "public_dir"
  outputDirectory := values.lookup "out_dir"
  catalogPath := values.lookup "catalog_path"

def environmentLayer (environment : Environment) (mode : Option DeployMode) : Layer where
  bindAddress := (environment "APP__BIND_ADDR").or (environment "SHOWCASE_BIND")
  mode
  basePath := (environment "APP__BASE_PATH").or (environment "BASE_URL")
  publicDirectory := environment "APP__PUBLIC_DIR"
  outputDirectory := environment "APP__OUT_DIR"
  catalogPath := environment "APP__CATALOG_PATH"

theorem read_mode_known (raw : Option String) (known : ∀ text, raw = some text → DeployMode.ofText? text ≠ none) :
    readMode raw = .ok (raw.bind DeployMode.ofText?) := by
  cases raw with
  | none => rfl
  | some text =>
      obtain ⟨mode, found⟩ := Option.ne_none_iff_exists'.mp (known text rfl)
      rw [readMode, DeployMode.ofText, Option.bind_some, found]
      rfl

theorem read_mode_unknown (text : String) (unknown : DeployMode.ofText? text = none) :
    readMode (some text) = .error [.error (.invalidDeployMode text)] := by
  rw [readMode, DeployMode.ofText, unknown]
  rfl

section Sources

variable {file : Option String} {environment : Environment} {values : List (String × String)}

theorem sources_readable (holds : FileHolds file values) :
    ofSources file environment = (readMode (values.lookup "mode")).bind fun fileMode =>
      (readMode (environment "APP__MODE")).map fun mode =>
        (({} : Settings).apply (fileLayer values fileMode)).apply (environmentLayer environment mode) := by
  have environmental : ofEnvironment environment =
      (readMode (environment "APP__MODE")).map (environmentLayer environment) := by
    rw [ofEnvironment]
    cases readMode (environment "APP__MODE") <;> rfl
  cases holds with
  | absent =>
      rw [ofSources, environmental]
      cases readMode (environment "APP__MODE") <;> rfl
  | document text _ parsed =>
      have layered : ofFile text = (readMode (values.lookup "mode")).map (fileLayer values) := by
        rw [ofFile, file_members_readable text values parsed]
        change (readMode (values.lookup "mode")).bind _ = _
        cases readMode (values.lookup "mode") <;> rfl
      rw [ofSources, environmental]
      dsimp only
      rw [layered]
      cases readMode (values.lookup "mode") with
      | error failure => rfl
      | ok fileMode => cases readMode (environment "APP__MODE") <;> rfl

theorem sources_unreadable (text : String) (unreadable : ∀ values, ¬ FileHolds (some text) values) :
    ofSources (some text) environment =
      .error [.message "failed to parse showcase.toml",
        .document (if (Toml.parse? text).isNone then .malformed else .value .invalidType)] := by
  have failed : ofFile text = .error [.message "failed to parse showcase.toml",
      .document (if (Toml.parse? text).isNone then .malformed else .value .invalidType)] := by
    rw [ofFile, file_members_unreadable text unreadable]
    rfl
  rw [ofSources]
  dsimp only
  rw [failed]
  rfl

end Sources

theorem highest_cons {α : Type} (first : Option α) (lower : List (Option α)) :
    highest (first :: lower) = first.or (highest lower) := by
  cases first <;> rfl

theorem rejects_resolve (file : Option String) (environment : Environment) (choices : Choices) (failure : Failure)
    (rejects : Rejects file environment failure) : resolve file environment choices = .error failure := by
  rw [resolve]
  cases rejects with
  | file text given unreadable =>
      subst given
      rw [sources_unreadable text unreadable]
      rfl
  | fileMode values raw holds set unknown =>
      rw [sources_readable holds, set, read_mode_unknown raw unknown]
      rfl
  | environmentMode values raw holds known set unknown =>
      rw [sources_readable holds, read_mode_known _ known, set, read_mode_unknown raw unknown]
      rfl

def layered (values : List (String × String)) (environment : Environment) (choices : Choices) : Settings :=
  let file := fileLayer values ((values.lookup "mode").bind DeployMode.ofText?)
  let outside := environmentLayer environment ((environment "APP__MODE").bind DeployMode.ofText?)
  ((({} : Settings).apply file).apply outside).apply choices.layer

theorem layered_resolved (values : List (String × String)) (environment : Environment) (choices : Choices) :
    Resolved values environment choices (layered values environment choices) := by
  have basePath : (layered values environment choices).basePath = highest
      [choices.basePath, environment "APP__BASE_PATH", environment "BASE_URL", values.lookup "base_path"] := by
    simp [layered, apply, fileLayer, environmentLayer, Choices.layer, highest_cons, highest, Option.or_assoc]
  refine ⟨?_, ?_, basePath, ?_, ?_, ?_, ?_, ?_⟩
  · simp [layered, apply, fileLayer, environmentLayer, Choices.layer, highest_cons, highest]
  · simp [layered, apply, fileLayer, environmentLayer, Choices.layer, highest_cons, highest, DeployMode.default]
  · simp [layered, apply, fileLayer, environmentLayer, Choices.layer, highest_cons, highest]
  · simp [layered, apply, fileLayer, environmentLayer, Choices.layer, highest_cons, highest]
  · simp [layered, apply, fileLayer, environmentLayer, Choices.layer, highest_cons, highest]
  · intro path set
    rw [Settings.deployment, basePath, set]
  · intro unset
    rw [Settings.deployment, basePath, unset]

theorem known_resolve (file : Option String) (environment : Environment) (choices : Choices)
    (values : List (String × String)) (holds : FileHolds file values)
    (fileMode : ∀ raw, values.lookup "mode" = some raw → DeployMode.ofText? raw ≠ none)
    (environmentMode : ∀ raw, environment "APP__MODE" = some raw → DeployMode.ofText? raw ≠ none) :
    resolve file environment choices = .ok (layered values environment choices) := by
  rw [resolve, sources_readable holds, read_mode_known _ fileMode, read_mode_known _ environmentMode]
  rfl

theorem resolve_congr (file : Option String) (environment other : Environment) (choices : Choices)
    (agree : ∀ name ∈ environmentVariables, other name = environment name) :
    resolve file other choices = resolve file environment choices := by
  have same : ofEnvironment other = ofEnvironment environment := by
    simp only [environmentVariables, List.forall_mem_cons] at agree
    obtain ⟨bind, appBind, mode, base, appBase, publicDirectory, outputDirectory, catalog, _⟩ := agree
    simp only [ofEnvironment, bind, appBind, mode, base, appBase, publicDirectory, outputDirectory, catalog]
  simp only [resolve, ofSources, same]

theorem settings_resolve (file : Option String) (environment : Environment) (choices : Choices) (tree : FileTree)
    (given : fileText tree fileName = .ok file) :
    choices.settings environment tree = resolve file environment choices := by
  rw [Choices.settings, load, given]
  rfl

theorem values_distinct (file : Option String) (values : List (String × String)) (holds : FileHolds file values) :
    (values.map Prod.fst).Nodup := by
  cases holds with
  | absent => exact List.nodup_nil
  | document text _ parsed =>
      have distinct := Toml.parse_distinct text _ parsed
      rwa [Toml.Distinct, textMembers, List.map_map] at distinct

theorem layers_resolve (file : Option String) (environment : Environment) (choices : Choices) :
    (∀ tree, fileText tree fileName = .ok file →
      choices.settings environment tree = resolve file environment choices) ∧
    (∀ failure, resolve file environment choices = .error failure ↔ Rejects file environment failure) ∧
    (∀ settings, resolve file environment choices = .ok settings →
      ∃ values, FileHolds file values ∧ (values.map Prod.fst).Nodup ∧
        Resolved values environment choices settings) ∧
    ∀ other : Environment, (∀ name ∈ environmentVariables, other name = environment name) →
      resolve file other choices = resolve file environment choices := by
  have outcome : (∃ failure, Rejects file environment failure) ∨
      ∃ values, FileHolds file values ∧
        resolve file environment choices = .ok (layered values environment choices) := by
    by_cases readable : ∃ values, FileHolds file values
    · obtain ⟨values, holds⟩ := readable
      by_cases fileMode : ∀ raw, values.lookup "mode" = some raw → DeployMode.ofText? raw ≠ none
      · by_cases environmentMode : ∀ raw, environment "APP__MODE" = some raw → DeployMode.ofText? raw ≠ none
        · exact .inr ⟨values, holds, known_resolve file environment choices values holds fileMode environmentMode⟩
        · simp only [not_forall, not_not] at environmentMode
          obtain ⟨raw, set, unknown⟩ := environmentMode
          exact .inl ⟨_, .environmentMode values raw holds fileMode set unknown⟩
      · simp only [not_forall, not_not] at fileMode
        obtain ⟨raw, set, unknown⟩ := fileMode
        exact .inl ⟨_, .fileMode values raw holds set unknown⟩
    · cases file with
      | none => exact absurd ⟨[], .absent⟩ readable
      | some text => exact .inl ⟨_, .file text rfl (fun values holds => readable ⟨values, holds⟩)⟩
  refine ⟨settings_resolve file environment choices, ?_, ?_, fun other => resolve_congr file environment other choices⟩
  · intro failure
    refine ⟨?_, rejects_resolve file environment choices failure⟩
    intro failed
    rcases outcome with ⟨reason, rejects⟩ | ⟨values, _, resolved⟩
    · rw [rejects_resolve file environment choices reason rejects] at failed
      rwa [← Except.error.inj failed]
    · rw [resolved] at failed
      cases failed
  · intro settings resolved
    rcases outcome with ⟨reason, rejects⟩ | ⟨values, holds, same⟩
    · rw [rejects_resolve file environment choices reason rejects] at resolved
      cases resolved
    · rw [resolved] at same
      cases same
      exact ⟨values, holds, values_distinct file values holds, layered_resolved values environment choices⟩

def quietFile : String := "mode = \"prod\"\nbase_path = \"\"\nout_dir = \"site\"\n"

def onlyVariable (name value : String) : Environment := fun asked => if asked = name then some value else none

theorem layers_resolve_shadowed :
    let choices : Choices := { mode := some .production }
    let settings : Settings :=
      { mode := .production, basePath := some "", outputDirectory := "site", publicDirectory := "www" }
    resolve (some quietFile) (onlyVariable "APP__PUBLIC_DIR" "www") choices = .ok settings ∧
    (∃ values, FileHolds (some quietFile) values ∧
      Resolved values (onlyVariable "APP__PUBLIC_DIR" "www") choices settings) ∧
    settings.deployment = .ok ⟨"/"⟩ ∧
    Rejects (some quietFile) (onlyVariable "APP__MODE" "staging") [.error (.invalidDeployMode "staging")] := by
  intro choices settings
  have resolved : resolve (some quietFile) (onlyVariable "APP__PUBLIC_DIR" "www") choices = .ok settings := by
    decide +kernel
  have failed : resolve (some quietFile) (onlyVariable "APP__MODE" "staging") choices =
      .error [.error (.invalidDeployMode "staging")] := by
    decide +kernel
  obtain ⟨_, _, set, _⟩ := layers_resolve (some quietFile) (onlyVariable "APP__PUBLIC_DIR" "www") choices
  obtain ⟨_, rejected, _, _⟩ := layers_resolve (some quietFile) (onlyVariable "APP__MODE" "staging") choices
  obtain ⟨values, holds, _, layers⟩ := set settings resolved
  exact ⟨resolved, ⟨values, holds, layers⟩, by decide, (rejected _).mp failed⟩

end Showcase.Settings
