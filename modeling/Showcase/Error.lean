import Showcase.Artifact
import Showcase.Fault

namespace Showcase

inductive ErrorCode where
  | notFound
  | validation
  | configuration
  | internal
deriving DecidableEq

inductive BasePathFault where
  | host
  | pattern
  | query
  | blank
deriving DecidableEq

def BasePathFault.message : BasePathFault → String
  | .host => "must be a path, not a URL with scheme or host"
  | .pattern => "'*' and ':' are reserved in route patterns"
  | .query => "query strings and fragments are not allowed"
  | .blank => "whitespace and control characters are not allowed"

inductive Error where
  | emptyCatalog
  | duplicateSampleId (id : SampleId)
  | invalidSampleId (raw : String)
  | unknownSample (raw : String)
  | invalidBasePath (basePath : String) (fault : BasePathFault)
  | invalidArtifactRule (fault : RuleFault)
  | invalidDeployMode (raw : String)
  | catalogParse (fault : DocumentFault)
deriving DecidableEq

namespace Error

def code : Error → ErrorCode
  | unknownSample _ => .notFound
  | invalidSampleId _ => .validation
  | _ => .configuration

def message : Error → String
  | emptyCatalog => "sample catalog is empty"
  | duplicateSampleId id => s!"duplicate sample id '{id.text}'"
  | invalidSampleId raw => invalidIdMessage raw
  | unknownSample raw => s!"unknown sample '{raw}'"
  | invalidBasePath basePath fault => s!"invalid base path '{basePath}': {fault.message}"
  | invalidArtifactRule fault => s!"invalid artifact rule: {fault.message}"
  | invalidDeployMode raw => s!"invalid deploy mode '{raw}': expected 'development' or 'production'"
  | catalogParse fault => s!"failed to parse sample catalog: {fault.message}"

end Error

structure ApiError where
  code : ErrorCode
  message : String
deriving DecidableEq

def Error.toApi (error : Error) : ApiError := ⟨error.code, error.message⟩

def SampleId.ofText (text : String) : Except Error SampleId :=
  match ofText? text with
  | some id => .ok id
  | none => .error (.invalidSampleId text)

end Showcase
