import Showcase.Text.Trim
import Showcase.Sample.Id

namespace Showcase

structure ArtifactRule where
  directory : String := "artifacts"
  extension : String := "ll"
deriving DecidableEq

/-- What makes a rule unusable: the leftmost bad segment of its directory, else its extension. -/
inductive RuleFault where
  | badSegment (directory segment : String)
  | badExtension (extension : String)
deriving DecidableEq

def RuleFault.message : RuleFault → String
  | .badSegment directory segment => s!"directory '{directory}' has invalid segment '{segment}'"
  | .badExtension extension => s!"extension '{extension}' must be ASCII alphanumeric"

namespace ArtifactRule

def isSegmentChar (c : Char) : Bool := c.isAlphanum || c == '.' || c == '-' || c == '_'

def isSegment (segment : List Char) : Bool :=
  segment != [] && segment != ['.'] && segment != ['.', '.'] && segment.all isSegmentChar

def isExtension (extension : String) : Bool :=
  !extension.isEmpty && extension.toList.all Char.isAlphanum

def folder (rule : ArtifactRule) : String := Text.trimSlashes rule.directory

def folderSegments (rule : ArtifactRule) : List (List Char) :=
  if rule.folder.isEmpty then [] else Text.segments rule.folder.toList

def fault? (rule : ArtifactRule) : Option RuleFault :=
  match rule.folderSegments.find? fun segment => !isSegment segment with
  | some segment => some (.badSegment rule.directory (String.ofList segment))
  | none => if isExtension rule.extension then none else some (.badExtension rule.extension)

def fileName (rule : ArtifactRule) (id : SampleId) : String := id.text ++ "." ++ rule.extension

def relativePath (rule : ArtifactRule) (id : SampleId) : String :=
  if rule.folder.isEmpty then rule.fileName id else rule.folder ++ "/" ++ rule.fileName id

end ArtifactRule

end Showcase
