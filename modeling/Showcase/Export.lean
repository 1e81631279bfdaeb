import Showcase.Failure
import Showcase.FileTree.Operations
import Showcase.Page.Basic

namespace Showcase.Export

open FileTree (Effect Location Node)
open FileTree.Path (join parent?)

structure Report where
  pages : List String
  copiedAssets : Nat
deriving DecidableEq

def during {α : Type} (message : String) (effect : Effect IoFault α) : Effect Failure α :=
  effect.adapt (Failure.ofIo message)

def attempt {α : Type} (fail : IoFault → Failure) (result : Except IoFault α) : Effect Failure α :=
  match result with
  | .ok a => return a
  | .error fault => throw (fail fault)

def creating (directory : String) : String := s!"failed to create output directory '{directory}'"

/-- Refuses two directories of which one lies in the other, because a copy would then read what it writes. -/
def refuseOverlap (publicDirectory outputDirectory : String) : Effect Failure Unit := do
  let tree ← get
  let locate := fun path => attempt (Failure.ofIo s!"failed to resolve '{path}'") (tree.locate path)
  let source ← locate publicDirectory
  let output ← locate outputDirectory
  if FileTree.isWithin output source || FileTree.isWithin source output then
    throw [.message s!"output directory '{outputDirectory}' overlaps public directory '{publicDirectory}'"]

def placePage (path html : String) : Effect Failure Unit := do
  if let some parent := parent? path then
    during (creating parent) (FileTree.ensureDirectories parent)
  during s!"failed to write '{path}'" (FileTree.write path (Text.utf8 html))

def indexPath (outputDirectory : String) : String := join outputDirectory "index.html"

def samplePath (outputDirectory : String) (id : SampleId) : String :=
  join (join outputDirectory id.pagePath) "index.html"

def placeSamples (outputDirectory : String) : Selection → List SampleEntry → Effect Failure (List String)
  | _, [] => return []
  | selection, entry :: rest => do
    match selection.select entry.id.text with
    | .error error => throw (Failure.ofError error)
    | .ok (_, moved) =>
      let path := samplePath outputDirectory entry.id
      let (page, read) := moved.page none
      placePage path page.render
      let paths ← placeSamples outputDirectory read rest
      return path :: paths

def copyFile (source target : String) : Effect Failure Nat := do
  during s!"failed to copy '{source}' to '{target}'" (FileTree.copy source target)
  return 1

def walking (root : String) (causes : Failure) : Failure := .message s!"failed to walk '{root}'" :: causes

def depthLimit : Nat := FileTree.pathLimit

/-- Copies what is in a directory, links followed, and counts the files. `trail` holds the locations of the directories
that the walk is in; a link to one of them would never end. -/
def copyBelow (root : String) : Nat → List Location → String → String → Effect Failure Nat
  | 0, _, _, _ => throw (walking root [.walkFault, .io .invalidFilename])
  | depth + 1, trail, source, target => do
    let walkFault := fun fault => walking root [.walkFault, .io fault]
    during s!"failed to create '{target}'" (FileTree.ensureDirectories target)
    let here ← attempt walkFault ((← get).locate source)
    let children ← attempt walkFault ((← get).list source)
    children.foldlM
      (fun copied (name, node) => do
        let child := join source name.text
        let place := join target name.text
        let more ← match node with
          | .file _ => copyFile child place
          | .directory => copyBelow root depth (here :: trail) child place
          | .link _ => do
            match ← attempt walkFault ((← get).inspect child) with
            | (location, .directory) =>
              if location ∈ here :: trail then throw (walking root [.walkLoop])
              else copyBelow root depth (here :: trail) child place
            | _ => copyFile child place
        return copied + more)
      0

def checkOverlap (publicDirectory outputDirectory : String) : Effect Failure Unit := do
  if (← get).isDirectory publicDirectory then refuseOverlap publicDirectory outputDirectory else pure ()

def copyAssets (publicDirectory outputDirectory : String) : Effect Failure Nat := do
  if (← get).isDirectory publicDirectory then
    copyBelow publicDirectory depthLimit [] publicDirectory (join outputDirectory "")
  else pure 0

def run (registry : Registry) (deployment : Deployment) (publicDirectory outputDirectory : String) :
    Effect Failure Report := do
  during (creating outputDirectory) (FileTree.ensureDirectories outputDirectory)
  checkOverlap publicDirectory outputDirectory
  let (page, selection) := (Selection.start registry deployment).page none
  placePage (indexPath outputDirectory) page.render
  let samples ← placeSamples outputDirectory selection registry.entries
  let copied ← copyAssets publicDirectory outputDirectory
  return ⟨indexPath outputDirectory :: samples, copied⟩

end Showcase.Export
