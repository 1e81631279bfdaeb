import Showcase.FileTree.Resolve
/-!
Reading and changing a tree by path. A change that fails leaves behind what it had done so far.
-/
namespace Showcase.FileTree

abbrev Effect (ε : Type) : Type → Type := ExceptT ε (StateM FileTree)

def inspect (tree : FileTree) (path : String) : Except IoFault (Location × Node) := do
  let location ← tree.locate path
  match tree.get? location with
  | some node => return (location, node)
  | none => throw .notFound

def isDirectory (tree : FileTree) (path : String) : Bool :=
  match tree.inspect path with
  | .ok (_, .directory) => true
  | _ => false

def openFile (tree : FileTree) (path : String) : Except IoFault File := do
  match ← tree.inspect path with
  | (_, .file file) => return file
  | (_, .directory) => throw .isADirectory
  | (_, .link _) => throw .filesystemLoop

def read (tree : FileTree) (path : String) : Except IoFault Bytes := do
  let file ← tree.openFile path
  return file.content

def readText (tree : FileTree) (path : String) : Except IoFault String := do
  match Text.ofUtf8? (← tree.read path) with
  | some text => return text
  | none => throw .invalidData

def list (tree : FileTree) (path : String) : Except IoFault (List (Name × Node)) := do
  match ← tree.inspect path with
  | (location, .directory) => return tree.children location
  | _ => throw .notADirectory

/-- The directory and the name that a new entry gets. Whatever has the name already, a link included, is in the way. -/
def vacancy (tree : FileTree) (path : String) : Except IoFault Location :=
  match pathFault? path with
  | some fault => .error fault
  | none =>
    let route := Route.ofText path
    match route.steps.getLast? with
    | none => .error .alreadyExists
    | some last => do
      -- the parent has to be a directory, through all links
      let parents := route.steps.dropLast ++ [.stay]
      match ← tree.walk true linkLimit (tree.start route) parents false with
      | .missing _ _ _ => throw .notFound
      | .found parent =>
        match last with
        | .stay | .up => throw .alreadyExists
        | .name name =>
          if nameLimit < name.text.utf8ByteSize then throw .invalidFilename
          else if (tree.get? (name :: parent)).isSome then throw .alreadyExists
          else return name :: parent

def makeDirectory (path : String) : Effect IoFault Unit := do
  let tree ← get
  let location ← tree.vacancy path
  set (tree.put location .directory)

def makeLink (path target : String) : Effect IoFault Unit := do
  let tree ← get
  let location ← tree.vacancy path
  set (tree.put location (.link target))

def ensureDirectory (path : String) : Effect IoFault Unit := do
  try makeDirectory path
  catch fault => if (← get).isDirectory path then pure () else throw fault

/-- Makes the parents first where they are missing; every round takes a segment off the path. -/
def ensureRounds : Nat → String → Effect IoFault Unit
  | 0, _ => throw .notFound
  | rounds + 1, path =>
    if path.isEmpty then pure ()
    else do
      try ensureDirectory path
      catch fault =>
        match fault, Path.parent? path with
        | .notFound, some parent => do
          ensureRounds rounds parent
          ensureDirectory path
        | _, _ => throw fault

def ensureDirectories (path : String) : Effect IoFault Unit := ensureRounds (path.length + 1) path

/-- The location that a file is written to: a file that may be written, or a free place, in both cases through links. -/
def writeLocation (tree : FileTree) (path : String) : Except IoFault Location := do
  match ← tree.resolve true path with
  | .missing parent name slash => if slash then throw .isADirectory else return name :: parent
  | .found location =>
    match tree.get? location with
    | some (.file ⟨_, .writable⟩) => return location
    | some (.file ⟨_, .readOnly⟩) => throw .permissionDenied
    | _ => throw .isADirectory

def store (path : String) (file : File) : Effect IoFault Unit := do
  let tree ← get
  let location ← tree.writeLocation path
  set (tree.put location (.file file))

def write (path : String) (content : Bytes) : Effect IoFault Unit := store path content

/-- Copies a file with its permission. The target is emptied before the source is read, so a file copied to itself ends
up empty; it stays open meanwhile, so a read-only copy can still be filled. -/
def copy (source target : String) : Effect IoFault Unit := do
  let tree ← get
  let file ← tree.openFile source
  let location ← tree.writeLocation target
  let emptied := tree.put location (.file ⟨[], file.access⟩)
  set emptied
  let content ← emptied.read source
  set (tree.put location (.file ⟨content, file.access⟩))

end Showcase.FileTree
