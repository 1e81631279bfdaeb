import Showcase.Error
import Showcase.FileTree.Basic

namespace Showcase

inductive Cause where
  | message (text : String)
  | error (error : Error)
  | io (fault : IoFault)
  | document (fault : DocumentFault)
  | walkLoop
  | walkFault
deriving DecidableEq

def Cause.text : Cause → String
  | .message text => text
  | .error cause => cause.message
  | .io fault => fault.message
  | .document fault => fault.message
  | .walkLoop => "link to a directory above it"
  | .walkFault => "directory walk failed"

abbrev Failure := List Cause

namespace Failure

def text (failure : Failure) : String := String.intercalate ": " (failure.map Cause.text)

def ofError (error : Error) : Failure := [.error error]

def ofIo (message : String) (fault : IoFault) : Failure := [.message message, .io fault]

end Failure

end Showcase
