import Showcase.Text.Trim

namespace Showcase.Server

inductive Pattern where
  | exact (path : String)
  | param (head name tail : String)
deriving DecidableEq

namespace Pattern

def text : Pattern → String
  | exact path => path
  | param head name tail => head ++ ":" ++ name ++ tail

def isRooted (pattern : Pattern) : Bool := pattern.text.toList.head? == some '/'

def clashes : Pattern → Pattern → Bool
  | exact path, exact other => path == other
  | param head name tail, param head' name' tail' => head == head' && (name != name' || tail == tail')
  | _, _ => false

def isExact : Pattern → Bool
  | exact _ => true
  | param _ _ _ => false

/-- The open segment of a path, empty for a pattern without one. Something has to follow the head, and the segment goes
up to the next slash. -/
def capture? (pattern : Pattern) (path : String) : Option String :=
  match pattern with
  | exact text => if text = path then some "" else none
  | param head _ tail =>
    match head.toList.isPrefixOf? path.toList with
    | none | some [] => none
    | some rest =>
      let segment := rest.takeWhile fun c => !Text.isSlash c
      if rest.dropWhile (fun c => !Text.isSlash c) = tail.toList then some (String.ofList segment) else none

end Pattern

end Showcase.Server
