import Showcase.Text.Blank
import Showcase.Error

namespace Showcase

namespace BasePath

def root : String := "/"

def project : String := "/delphi-pascal-llvm-compiler/"

/-- The path with its run of trailing slashes replaced by one; nothing else left means the root. -/
def normalize (basePath : String) : String :=
  let trimmed := Text.trimTrailingSlashes basePath
  if trimmed.isEmpty then root else trimmed ++ "/"

def stripLeadingSlash (path : String) : String :=
  match path.toList with
  | '/' :: rest => String.ofList rest
  | _ => path

def resolve (basePath relative : String) : String := normalize basePath ++ stripLeadingSlash relative

def fault? (basePath : String) : Option BasePathFault :=
  let text := basePath.toList
  if Text.contains [':', '/', '/'] text || ['/', '/'].isPrefixOf text then some .host
  else if text.any fun c => c == '*' || c == ':' then some .pattern
  else if text.any fun c => c == '?' || c == '#' then some .query
  else if text.any fun c => Text.isBlank c || Text.isControl c then some .blank
  else none

end BasePath

inductive DeployMode where
  | development
  | production
deriving DecidableEq

namespace DeployMode

def default : DeployMode := development

def name : DeployMode → String
  | development => "development"
  | production => "production"

def basePath : DeployMode → String
  | development => BasePath.root
  | production => BasePath.project

def ofText? (raw : String) : Option DeployMode :=
  let word := String.ofList ((Text.trim Text.isBlank raw.toList).map Char.toLower)
  if word = "development" ∨ word = "dev" then some development
  else if word = "production" ∨ word = "prod" then some production
  else none

def ofText (raw : String) : Except Error DeployMode :=
  match ofText? raw with
  | some mode => .ok mode
  | none => .error (.invalidDeployMode raw)

end DeployMode

structure Deployment where
  basePath : String
deriving DecidableEq

namespace Deployment

def root : Deployment := ⟨BasePath.root⟩

def ofMode (mode : DeployMode) : Deployment := ⟨mode.basePath⟩

def ofBasePath (basePath : String) : Except Error Deployment :=
  match BasePath.fault? basePath with
  | some fault => .error (.invalidBasePath basePath fault)
  | none => .ok ⟨BasePath.normalize basePath⟩

def isRoot (deployment : Deployment) : Bool := deployment.basePath == BasePath.root

def resolve (deployment : Deployment) (relative : String) : String :=
  BasePath.resolve deployment.basePath relative

end Deployment

end Showcase
