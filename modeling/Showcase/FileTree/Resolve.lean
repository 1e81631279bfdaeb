import Showcase.FileTree.Basic
import Showcase.FileTree.Path
/-!
From a path to a location. Links are followed on the way; the last one only where the caller wants it, or where a
slash follows it. The limits are those on a path and on each of its names. The location that it leads to has none, so a
path is still located where the absolute path of the place would be too long.
-/
namespace Showcase.FileTree

inductive Spot where
  | found (location : Location)
  | missing (parent : Location) (name : Name) (slash : Bool)
deriving DecidableEq

def nameLimit : Nat := 255

def pathLimit : Nat := 4096

def linkLimit : Nat := 40

/-- Walks from a directory up to the first link that is followed; `onward` goes on from there. -/
def stretch (tree : FileTree) (follow : Bool) (onward : Location → List Step → Bool → Except IoFault Spot) :
    Location → List Step → Bool → Except IoFault Spot
  | location, [], _ => .ok (.found location)
  | location, step :: rest, slash =>
    if tree.get? location ≠ some .directory then .error .notADirectory
    else match step with
      | .stay => tree.stretch follow onward location rest slash
      | .up => tree.stretch follow onward location.tail rest slash
      | .name name =>
        if nameLimit < name.text.utf8ByteSize then .error .invalidFilename
        else match tree.get? (name :: location) with
          | none => if rest = [] then .ok (.missing location name slash) else .error .notFound
          | some (.link target) =>
            if rest = [] ∧ !follow ∧ !slash then .ok (.found (name :: location))
            else
              let route := Route.ofText target
              onward (if route.absolute then [] else location) (route.steps ++ rest)
                (slash || (rest.isEmpty && route.slash))
          | some .directory => tree.stretch follow onward (name :: location) rest slash
          | some (.file _) =>
            if rest = [] ∧ !slash then .ok (.found (name :: location)) else .error .notADirectory

def walk (tree : FileTree) (follow : Bool) : Nat → Location → List Step → Bool → Except IoFault Spot
  | 0 => tree.stretch follow fun _ _ _ => .error .filesystemLoop
  | links + 1 => tree.stretch follow (tree.walk follow links)

def onward (tree : FileTree) (follow : Bool) : Nat → Location → List Step → Bool → Except IoFault Spot
  | 0 => fun _ _ _ => .error .filesystemLoop
  | links + 1 => tree.walk follow links

theorem walk_eq (tree : FileTree) (follow : Bool) (links : Nat) :
    tree.walk follow links = tree.stretch follow (tree.onward follow links) := by
  cases links <;> rfl

theorem walk_nil (tree : FileTree) (follow : Bool) (links : Nat) (location : Location) (slash : Bool) :
    tree.walk follow links location [] slash = .ok (.found location) := by
  rw [walk_eq, stretch]

-- Proofs follow a walk by its lemmas; unification would otherwise run it.
attribute [irreducible] walk stretch

def pathFault? (path : String) : Option IoFault :=
  if path.toList.contains '\x00' then some .invalidInput
  else if path.isEmpty then some .notFound
  else if pathLimit ≤ path.utf8ByteSize then some .invalidFilename
  else none

def start (tree : FileTree) (route : Route) : Location := if route.absolute then [] else tree.current

def resolve (tree : FileTree) (follow : Bool) (path : String) : Except IoFault Spot :=
  match pathFault? path with
  | some fault => .error fault
  | none =>
    let route := Route.ofText path
    tree.walk follow linkLimit (tree.start route) route.steps route.slash

def locate (tree : FileTree) (path : String) : Except IoFault Location := do
  match ← tree.resolve true path with
  | .found location => return location
  | .missing _ _ _ => throw .notFound

end Showcase.FileTree
