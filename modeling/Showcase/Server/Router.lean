import Showcase.Deployment
import Showcase.Failure
import Showcase.Registry
import Showcase.Server.Pattern

namespace Showcase.Server

inductive Endpoint where
  | health
  | home
  | sample
  | summaries
  | view
  | artifact
deriving DecidableEq

def sampleParameter : String := "sample_id"

def fileParameter : String := "file_name"

def Endpoint.parameter : Endpoint → String
  | .artifact => fileParameter
  | _ => sampleParameter

abbrev Router := List (Pattern × Endpoint)

namespace Router

def routes (registry : Registry) (deployment : Deployment) : Router :=
  let base := deployment.basePath
  let folder := registry.rule.folder
  let artifacts := if folder.isEmpty then base else base ++ folder ++ "/"
  [(.exact "/healthz", .health),
   (.exact base, .home),
   (.param (base ++ "samples/") sampleParameter "", .sample),
   (.param (base ++ "samples/") sampleParameter "/", .sample),
   (.exact (base ++ "api/samples"), .summaries),
   (.param (base ++ "api/samples/") sampleParameter "", .view),
   (.param artifacts fileParameter "", .artifact)] ++
  if deployment.isRoot then [] else [(.exact (Text.trimTrailingSlashes base), .home)]

inductive Fault where
  | unrooted (pattern : Pattern)
  | clash (pattern : Pattern)
deriving DecidableEq

def clash? : List Pattern → Option Pattern
  | [] => none
  | pattern :: rest => if rest.any pattern.clashes then some pattern else clash? rest

def fault? (router : Router) : Option Fault :=
  let patterns := router.map Prod.fst
  match patterns.find? fun pattern => !pattern.isRooted with
  | some pattern => some (.unrooted pattern)
  | none => (clash? patterns).map .clash

def build (registry : Registry) (deployment : Deployment) : Except Fault Router :=
  let router := routes registry deployment
  match router.fault? with
  | some fault => .error fault
  | none => .ok router

def first? (router : Router) (path : String) : Option (Endpoint × String) :=
  router.findSome? fun (pattern, endpoint) => (pattern.capture? path).map (endpoint, ·)

/-- The endpoint of a path with the raw segment that the pattern left open. Closed patterns go first. -/
def dispatch? (router : Router) (path : String) : Option (Endpoint × String) :=
  let (closed, opened) := router.partition fun route => route.1.isExact
  (first? closed path).or (first? opened path)

end Router

def ownSegments : List String := ["samples", "api"]

def ensureFolderFree (registry : Registry) : Except Failure Unit :=
  let folder := registry.rule.folder
  let segment := String.ofList ((Text.segments folder.toList).headD [])
  if segment ∈ ownSegments then
    .error [.message s!"artifact directory '{folder}' collides with the '{segment}/' routes"]
  else .ok ()

end Showcase.Server
