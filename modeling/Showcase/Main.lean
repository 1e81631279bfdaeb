import Showcase.Command.Run
import Showcase.FileTree.Listing
/-!
The showcase program. It reads the working directory, and what the settings name outside it, into a tree, runs the
command on the tree, and writes back what the command has changed.
-/
namespace Showcase.Main

def usage : String :=
  "Inspect and export the compiler sample showcase\n\n" ++
  "Usage: showcase [OPTIONS] <COMMAND>\n\n" ++
  "Commands:\n" ++
  "  list                              print sample ids and titles in display order\n" ++
  "  show <SAMPLE_ID>                  print the view of one sample as JSON\n" ++
  "  resolve <BASE> <RELATIVE_PATH>    join a base path and a relative path\n" ++
  "  export                            write the static site\n\n" ++
  "Options:\n" ++
  "  --catalog <CATALOG>          sample catalog file\n" ++
  "  --mode <MODE>                development or production\n" ++
  "  --base-path <BASE_PATH>      base path instead of the default of the mode\n" ++
  "  --out-dir <OUT_DIR>          output directory of the export\n" ++
  "  --public-dir <PUBLIC_DIR>    public directory of the export\n"

def contents : Nat → String → String → IO (List (String × FileTree.Node))
  | 0, _, _ => return []
  | depth + 1, directory, name => do
    let children ← (← IO.FS.realPath directory).readDir
    let lists ← children.toList.mapM fun child => do
      let path := FileTree.Path.join name child.fileName
      if !(← child.path.pathExists) then return []
      let metadata ← child.path.metadata
      if metadata.type == IO.FS.FileType.dir then
        return (path, .directory) :: (← contents depth child.path.toString path)
      else return [(path, .file (← IO.FS.readBinFile child.path).data.toList)]
    return lists.flatten

def outsidePaths (arguments : List String) (environment : Environment) (tree : FileTree) : List String :=
  match Command.parse arguments with
  | .error _ => []
  | .ok (choices, _) =>
    match choices.settings environment tree with
    | .error _ => []
    | .ok settings =>
      (settings.catalogPath.toList ++ [settings.publicDirectory]).filter fun path =>
        let route := FileTree.Route.ofText path
        route.absolute || route.steps.contains .up

def outsideContents (path : String) : IO (List (String × FileTree.Node)) := do
  let place ← try IO.FS.realPath path catch _ => return []
  if !(← place.pathExists) then return []
  else if ← place.isDir then return (path, .directory) :: (← contents 64 path path)
  else return [(path, .file (← IO.FS.readBinFile place).data.toList)]

def store (before after : FileTree) : IO Unit := do
  for (location, node) in after.entries do
    if before.get? location != some node then
      let path := "/" ++ String.intercalate "/" (location.reverse.map FileTree.Name.text)
      match node with
      | .directory => IO.FS.createDirAll path
      | .file file => IO.FS.writeBinFile path ⟨(file : Bytes).toArray⟩
      | .link _ => pure ()

def environment : IO Environment := do
  let values ← Settings.environmentVariables.filterMapM fun name => do return (← IO.getEnv name).map (name, ·)
  return fun name => values.lookup name

end Showcase.Main

open Showcase in
def main (arguments : List String) : IO UInt32 := do
  let directory := (← IO.currentDir).toString
  let location := (Text.segments directory.toList).reverse.filterMap fun name =>
    FileTree.Name.ofText? (String.ofList name)
  let environment ← Main.environment
  let inside := (FileTree.emptyAt location).addAll (← Main.contents 64 directory "")
  let outside ← (Main.outsidePaths arguments environment inside).mapM Main.outsideContents
  let before := inside.addAll outside.flatten
  let (outcome, after) := Command.run arguments environment before
  Main.store before after
  match outcome with
  | .refused .help => IO.print Main.usage
  | .refused .usage => IO.eprint Main.usage
  | .failed failure => IO.eprintln ("Error: " ++ failure.text)
  | .printed output => IO.print output
  return outcome.exitCode.toUInt32
