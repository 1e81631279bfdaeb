import Showcase.Registry
import Showcase.Deployment

namespace Showcase

structure View where
  title : String
  sourceText : String
  expectedOutput : String
  downloadHref : String
  downloadLabel : String
deriving DecidableEq

def View.ofEntry (registry : Registry) (deployment : Deployment) (entry : SampleEntry) : View where
  title := entry.title
  sourceText := entry.sourceText
  expectedOutput := entry.expectedOutput
  downloadHref := deployment.resolve (registry.artifactPath entry)
  downloadLabel := registry.downloadLabel entry

structure NavItem where
  id : SampleId
  title : String
  href : String
  active : Bool
deriving DecidableEq

def NavItem.all (registry : Registry) (deployment : Deployment) (active : Fin registry.entries.length) :
    List NavItem :=
  (List.finRange registry.entries.length).map fun position =>
    let entry := registry.entryAt position
    { id := entry.id
      title := entry.title
      href := deployment.resolve entry.id.pagePath
      active := position == active }

end Showcase
