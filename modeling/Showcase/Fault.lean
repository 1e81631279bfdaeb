namespace Showcase

def invalidIdMessage (raw : String) : String := s!"invalid sample id '{raw}': expected [A-Za-z0-9_-]+"

inductive ValueFault where
  | invalidId (raw : String)
  | missingField (name : String)
  | duplicateField (name : String)
  | invalidType
  | invalidLength
  | unknownVariant
deriving DecidableEq

def ValueFault.message : ValueFault → String
  | .invalidId raw => invalidIdMessage raw
  | .missingField name => "missing field `" ++ name ++ "`"
  | .duplicateField name => "duplicate field `" ++ name ++ "`"
  | .invalidType => "invalid type"
  | .invalidLength => "invalid length"
  | .unknownVariant => "unknown variant"

inductive DocumentFault where
  | malformed
  | value (fault : ValueFault)
deriving DecidableEq

def DocumentFault.detail? : DocumentFault → Option String
  | .malformed => none
  | .value fault => some fault.message

def DocumentFault.message (fault : DocumentFault) : String := fault.detail?.getD "malformed document"

end Showcase
