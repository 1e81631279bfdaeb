import Showcase.FileTree.Entries

namespace Showcase.FileTree

namespace Path

def isAbsolute (path : String) : Bool := path.toList.head? == some '/'

/-- An absolute second path replaces the first; an empty one adds a slash. -/
def join (base relative : String) : String :=
  if isAbsolute relative then relative
  else if base.isEmpty || base.toList.getLast? == some '/' then base ++ relative
  else base ++ "/" ++ relative

def isInert (segment : List Char) : Bool := segment == [] || segment == ['.']

def splitHead : List Char → List Char × List Char
  | '/' :: rest => (['/'], rest)
  | ['.'] => (['.'], [])
  | '.' :: '/' :: rest => (['.'], '/' :: rest)
  | text => ([], text)

def joinSegments (segments : List (List Char)) : List Char := ['/'].intercalate segments

def parent? (path : String) : Option String :=
  let (head, body) := splitHead path.toList
  match (Text.segments body).reverse.dropWhile isInert with
  | [] => if head = ['.'] then some "" else none
  | _ :: before => some (String.ofList (head ++ joinSegments (before.dropWhile isInert).reverse))

end Path

inductive Step where
  | stay
  | up
  | name (name : Name)
deriving DecidableEq

structure Route where
  absolute : Bool
  steps : List Step
  slash : Bool
deriving DecidableEq

def Step.ofSegment? (segment : List Char) : Option Step :=
  if segment = [] then none
  else if segment = ['.'] then some .stay
  else if segment = ['.', '.'] then some .up
  else (Name.ofText? (String.ofList segment)).map .name

def Route.ofText (path : String) : Route where
  absolute := Path.isAbsolute path
  steps := (Text.segments path.toList).filterMap Step.ofSegment?
  slash := path.toList.getLast? == some '/'

end Showcase.FileTree
