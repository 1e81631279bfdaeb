import Showcase.Record.Layouts
import Showcase.Toml.Decode
import Showcase.Toml.Document

namespace Showcase

structure Catalog where
  rule : ArtifactRule := {}
  samples : List SampleEntry := []

namespace Catalog

/-- Reads the members of a catalog in their order, so that the first wrong one is reported. -/
def ofMembers (members : Toml.Members) : Except ValueFault Catalog :=
  members.foldlM
    (fun catalog (key, value) =>
      if key = "artifacts" then
        (Toml.record ArtifactRule.layout value).map fun rule => { catalog with rule }
      else if key = "samples" then
        (Toml.list (Toml.record SampleEntry.layout) value).map fun samples => { catalog with samples }
      else .ok catalog)
    {}

def read (document : String) : Except DocumentFault Catalog :=
  match Toml.parse? document with
  | none => .error .malformed
  | some members => (ofMembers members).mapError .value

end Catalog

def Registry.ofDocument (document : String) : Except Error Registry :=
  match Catalog.read document with
  | .error fault => .error (.catalogParse fault)
  | .ok catalog => ofEntries catalog.samples catalog.rule

end Showcase
