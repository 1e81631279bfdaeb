namespace Showcase

def isIdChar (c : Char) : Bool := c.isAlphanum || c == '-' || c == '_'

def isIdText (text : String) : Bool := !text.isEmpty && text.toList.all isIdChar

structure SampleId where
  text : String
  valid : isIdText text = true
deriving DecidableEq

namespace SampleId

def ofText? (text : String) : Option SampleId :=
  if valid : isIdText text = true then some ⟨text, valid⟩ else none

instance : Ord SampleId where
  compare a b := compare a.text b.text

def pagePath (id : SampleId) : String := "samples/" ++ id.text ++ "/"

end SampleId

end Showcase
