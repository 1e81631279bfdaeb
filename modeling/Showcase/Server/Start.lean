import Showcase.Server.Address
import Showcase.Server.Site
import Showcase.Settings

namespace Showcase.Server

inductive StartFault where
  | failure (failure : Failure)
  | routes (fault : Router.Fault)
deriving DecidableEq

structure Running where
  site : Site
  router : Router
  address : SocketAddress

def configure (tree : FileTree) (environment : Environment) : Except Failure (Site × SocketAddress) := do
  let settings ← Settings.load tree environment
  let registry ← settings.registry tree
  let deployment ← settings.deployment.mapError Failure.ofError
  if deployment.basePath.toList.head? != some '/' then
    throw [.message s!"base path '{deployment.basePath}' must start with '/' to be served"]
  ensureFolderFree registry
  match SocketAddress.ofText? settings.bindAddress with
  | none => throw [.message "invalid socket address syntax"]
  | some address => return (⟨registry, deployment, settings.publicDirectory⟩, address)

def start (tree : FileTree) (environment : Environment) : Except StartFault Running := do
  let (site, address) ← (configure tree environment).mapError .failure
  let router ← (Router.build site.registry site.deployment).mapError .routes
  address.bind.mapError fun fault => .failure [.io fault]
  return ⟨site, router, address⟩

end Showcase.Server
