import Showcase.Text.Trim
import Showcase.Text.Utf8
/-!
What a file tree is made of. Of its permission bits a file has only whether it may be written. The user who runs the
program is not the superuser, owns and can read every file, and can list and change every directory. No two places share
a file: there are no hard links.
-/
namespace Showcase.FileTree

def isName (text : String) : Bool :=
  text != "" && text != "." && text != ".." && !text.toList.any Text.isSlash

structure Name where
  text : String
  valid : isName text = true
deriving DecidableEq

def Name.ofText? (text : String) : Option Name :=
  if valid : isName text = true then some ⟨text, valid⟩ else none

/-- The names from the root to a place, the innermost first. -/
abbrev Location := List Name

inductive Access where
  | writable
  | readOnly
deriving DecidableEq

structure File where
  content : Bytes
  access : Access := .writable
deriving DecidableEq

/-- Bytes alone stand for a file that may be written. -/
instance : Coe Bytes File := ⟨fun content => { content }⟩

instance : Coe File Bytes := ⟨File.content⟩

inductive Node where
  | file (file : File)
  | directory
  | link (target : String)
deriving DecidableEq

abbrev Entries := List (Location × Node)

def Attached (entries : Entries) : Location → Prop
  | [] => False
  | _ :: parent => parent = [] ∨ (parent, .directory) ∈ entries

def Entries.put (entries : Entries) (location : Location) (node : Node) : Entries :=
  if (entries.lookup location).isSome then
    entries.map fun (place, old) => if place = location then (place, node) else (place, old)
  else entries ++ [(location, node)]

theorem lookup_of_mem {entries : Entries} {location : Location} {node : Node}
    (distinct : (entries.map Prod.fst).Nodup) (member : (location, node) ∈ entries) :
    entries.lookup location = some node := by
  induction entries with
  | nil => cases member
  | cons entry rest ih =>
    obtain ⟨place, old⟩ := entry
    obtain ⟨fresh, distinct⟩ := List.nodup_cons.mp distinct
    rcases List.mem_cons.mp member with same | member
    · cases same
      simp
    · have different : location ≠ place := by
        intro same
        exact fresh (same ▸ List.mem_map.mpr ⟨(location, node), member, rfl⟩)
      have apart : (location == place) = false := by simpa using different
      simpa only [List.lookup_cons, apart] using ih distinct member

theorem mem_of_lookup {entries : Entries} {location : Location} {node : Node}
    (found : entries.lookup location = some node) : (location, node) ∈ entries := by
  obtain ⟨before, after, split, _⟩ := List.lookup_eq_some_iff.mp found
  simp [split]

end Showcase.FileTree
