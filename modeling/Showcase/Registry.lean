import Std.Data.HashMap
import Showcase.Error
import Showcase.Sample.Entry
import Showcase.Catalog.Builtin

namespace Showcase

structure Registry where
  entries : List SampleEntry
  rule : ArtifactRule
  index : Std.HashMap String (Fin entries.length)
  nonempty : entries ≠ []

namespace Registry

def indexStep (entries : List SampleEntry) (index : Std.HashMap String (Fin entries.length))
    (position : Fin entries.length) : Except Error (Std.HashMap String (Fin entries.length)) :=
  let id := (entries.get position).id
  if index.contains id.text then .error (.duplicateSampleId id) else .ok (index.insert id.text position)

def indexOf (entries : List SampleEntry) : Except Error (Std.HashMap String (Fin entries.length)) :=
  (List.finRange entries.length).foldlM (indexStep entries) ∅

def ofEntries (entries : List SampleEntry) (rule : ArtifactRule) : Except Error Registry :=
  if nonempty : entries ≠ [] then
    match rule.fault? with
    | some fault => .error (.invalidArtifactRule fault)
    | none => (indexOf entries).map fun index => ⟨entries, rule, index, nonempty⟩
  else .error .emptyCatalog

def builtin : Except Error Registry := ofEntries Catalog.builtinSamples {}

def size (registry : Registry) : Nat := registry.entries.length

theorem size_pos (registry : Registry) : 0 < registry.entries.length :=
  List.length_pos_iff.mpr registry.nonempty

def firstPosition (registry : Registry) : Fin registry.entries.length := ⟨0, registry.size_pos⟩

def entryAt (registry : Registry) (position : Fin registry.entries.length) : SampleEntry :=
  registry.entries.get position

def entryAt? (registry : Registry) (position : Nat) : Option SampleEntry := registry.entries[position]?

def first (registry : Registry) : SampleEntry := registry.entryAt registry.firstPosition

def position? (registry : Registry) (id : String) : Option (Fin registry.entries.length) :=
  registry.index[id]?

def find? (registry : Registry) (id : String) : Option SampleEntry :=
  (registry.position? id).map registry.entryAt

def get (registry : Registry) (id : String) : Except Error SampleEntry :=
  match registry.find? id with
  | some entry => .ok entry
  | none => .error (.unknownSample id)

def contains (registry : Registry) (id : String) : Bool := registry.index.contains id

def artifactPath (registry : Registry) (entry : SampleEntry) : String := registry.rule.relativePath entry.id

def downloadLabel (registry : Registry) (entry : SampleEntry) : String := registry.rule.fileName entry.id

def summaries (registry : Registry) : List SampleSummary := registry.entries.map SampleEntry.summary

end Registry

end Showcase
