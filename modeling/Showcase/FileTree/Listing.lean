import Showcase.FileTree.Operations

namespace Showcase.FileTree

def add (tree : FileTree) (path : String) (node : Node) : FileTree :=
  let effect : Effect IoFault Unit := do
    match Path.parent? path with
    | some parent => ensureDirectories parent
    | none => return ()
    match node with
    | .file file => store path file
    | .directory => ensureDirectories path
    | .link target => makeLink path target
  (effect.run tree).2

def addAll (tree : FileTree) (listing : List (String × Node)) : FileTree :=
  listing.foldl (fun tree (path, node) => tree.add path node) tree

def ofListing (listing : List (String × Node)) : FileTree := empty.addAll listing

def relative? (base location : Location) : Option String :=
  if isWithin location base && location != base then
    some (String.intercalate "/" ((location.take (location.length - base.length)).reverse.map Name.text))
  else none

def listing (tree : FileTree) : List (String × Node) :=
  tree.entries.filterMap fun (location, node) => (relative? tree.current location).map (·, node)

end Showcase.FileTree
