import Showcase.Proofs.Recast
import Showcase.Proofs.Spelling
/-!
Exports that are run again. After a run every path of the export shows a file or a directory, so another run finds the
way open everywhere, and what it writes is there already. Only a read-only file stops it, because its copy is read-only too.
-/
set_option autoImplicit false

namespace Showcase.Export

open FileTree
open FileTree.Path (join)

section Settled

variable {settled : FileTree} (free : LinkFree settled)

include free

variable {source target : String} (lent : settled.isDirectory source = true)
variable (taken : settled.isDirectory target = true)
variable (mirrored : ∀ (names : List Name) (node : Node),
  settled.get? (names.reverse ++ settled.target source) = some node →
  settled.get? (names.reverse ++ settled.target target) = some node)

include lent taken mirrored

end Settled

section Housed

variable {written : Location → Prop} {before after : FileTree} (free : LinkFree before)

include free

end Housed

section Run

variable {entries : List SampleEntry} {rule : ArtifactRule} {registry : Registry} {deployment : Deployment}
variable {source output : String} {tree made paged placed final : FileTree} {report : Report}

section Source

variable (layers : Layers registry deployment source output made placed final)
variable (outside : ∀ rest, ¬ made.target output <:+ rest ++ made.target source)

include layers outside

end Source

section Again

variable {placedAgain finalAgain : FileTree} (layers : Layers registry deployment source output made placed final)
variable (again : Layers registry deployment source output final placedAgain finalAgain)
variable (outside : ∀ rest, ¬ made.target output <:+ rest ++ made.target source)

include layers again outside

end Again

section Twice

variable (built : Registry.ofEntries entries rule = .ok registry) (free : LinkFree tree)
variable (prepared : (ensureDirectories output).run tree = (.ok (), made))
variable (exported : (run registry deployment source output).run tree = (.ok report, final))
variable (directory : made.isDirectory source = true)

include built free prepared exported directory

end Twice

end Run

def guarded : FileTree where
  entries := [([workName], .directory), ([publicName, workName], .directory),
    ([noteName, publicName, workName], .file ⟨[1], .readOnly⟩)]
  current := [workName]
  distinct := by decide
  attached := by simp [Attached]

end Showcase.Export
