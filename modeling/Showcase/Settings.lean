import Showcase.Catalog.Read
import Showcase.Failure
import Showcase.FileTree.Operations

namespace Showcase

structure Settings where
  bindAddress : String := "127.0.0.1:5173"
  mode : DeployMode := .default
  basePath : Option String := none
  publicDirectory : String := "public"
  outputDirectory : String := "docs"
  catalogPath : Option String := none
deriving DecidableEq

abbrev Environment := String → Option String

namespace Settings

structure Layer where
  bindAddress : Option String := none
  mode : Option DeployMode := none
  basePath : Option String := none
  publicDirectory : Option String := none
  outputDirectory : Option String := none
  catalogPath : Option String := none
deriving DecidableEq

def apply (settings : Settings) (layer : Layer) : Settings where
  bindAddress := layer.bindAddress.getD settings.bindAddress
  mode := layer.mode.getD settings.mode
  basePath := layer.basePath.or settings.basePath
  publicDirectory := layer.publicDirectory.getD settings.publicDirectory
  outputDirectory := layer.outputDirectory.getD settings.outputDirectory
  catalogPath := layer.catalogPath.or settings.catalogPath

def fileName : String := "showcase.toml"

def readMode (raw : Option String) : Except Failure (Option DeployMode) :=
  match raw with
  | none => .ok none
  | some raw => ((DeployMode.ofText raw).map some).mapError Failure.ofError

def fileMembers (document : String) : Except DocumentFault (List (String × String)) :=
  match Toml.parse? document with
  | none => .error .malformed
  | some members =>
    (members.mapM fun member : String × Toml.Value => (Toml.text member.2).map (member.1, ·)).mapError .value

def ofFile (document : String) : Except Failure Layer := do
  let members ← (fileMembers document).mapError fun fault =>
    [.message s!"failed to parse {fileName}", .document fault]
  let mode ← readMode (members.lookup "mode")
  return { bindAddress := members.lookup "bind_addr"
           mode
           basePath := members.lookup "base_path"
           publicDirectory := members.lookup "public_dir"
           outputDirectory := members.lookup "out_dir"
           catalogPath := members.lookup "catalog_path" }

def environmentVariables : List String :=
  ["SHOWCASE_BIND", "APP__BIND_ADDR", "APP__MODE", "BASE_URL", "APP__BASE_PATH", "APP__PUBLIC_DIR", "APP__OUT_DIR",
   "APP__CATALOG_PATH"]

def ofEnvironment (environment : Environment) : Except Failure Layer := do
  let mode ← readMode (environment "APP__MODE")
  return { bindAddress := (environment "APP__BIND_ADDR").or (environment "SHOWCASE_BIND")
           mode
           basePath := (environment "APP__BASE_PATH").or (environment "BASE_URL")
           publicDirectory := environment "APP__PUBLIC_DIR"
           outputDirectory := environment "APP__OUT_DIR"
           catalogPath := environment "APP__CATALOG_PATH" }

def ofSources (file : Option String) (environment : Environment) : Except Failure Settings := do
  let fileLayer ← match file with
    | none => pure {}
    | some document => ofFile document
  let environmentLayer ← ofEnvironment environment
  return (({} : Settings).apply fileLayer).apply environmentLayer

def fileText (tree : FileTree) (path : String) : Except Failure (Option String) :=
  match tree.readText path with
  | .ok text => .ok (some text)
  | .error .notFound => .ok none
  | .error fault => .error (Failure.ofIo s!"failed to read '{path}'" fault)

def load (tree : FileTree) (environment : Environment) : Except Failure Settings := do
  ofSources (← fileText tree fileName) environment

def deployment (settings : Settings) : Except Error Deployment :=
  match settings.basePath with
  | some basePath => Deployment.ofBasePath basePath
  | none => .ok (Deployment.ofMode settings.mode)

def registry (settings : Settings) (tree : FileTree) : Except Failure Registry :=
  match settings.catalogPath with
  | none => Registry.builtin.mapError Failure.ofError
  | some path => do
    let document ← (tree.readText path).mapError (Failure.ofIo s!"failed to read sample catalog '{path}'")
    (Registry.ofDocument document).mapError fun error =>
      [.message s!"invalid sample catalog '{path}'", .error error]

end Settings

end Showcase
