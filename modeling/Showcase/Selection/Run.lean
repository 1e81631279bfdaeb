import Showcase.Page.Basic

namespace Showcase.Selection

inductive Step where
  | select (id : String)
  | view
  | nav
  | entry
  | basePath
  | size
  | page (notice : Option String)
deriving DecidableEq

inductive Answer where
  | moved (outcome : Outcome)
  | rejected (error : Error)
  | view (view : View)
  | nav (items : List NavItem)
  | entry (entry : SampleEntry)
  | basePath (basePath : String)
  | size (size : Nat)
  | page (page : Page)
deriving DecidableEq

def step (selection : Selection) : Step → Answer × Selection
  | .select id =>
    match selection.select id with
    | .ok (outcome, moved) => (.moved outcome, moved)
    | .error error => (.rejected error, selection)
  | .view => let (view, read) := selection.view; (.view view, read)
  | .nav => (.nav selection.nav, selection)
  | .entry => (.entry selection.activeEntry, selection)
  | .basePath => (.basePath selection.deployment.basePath, selection)
  | .size => (.size selection.registry.size, selection)
  | .page notice => let (page, read) := selection.page notice; (.page page, read)

def run (selection : Selection) : List Step → List (Answer × Selection)
  | [] => []
  | next :: rest =>
    let (answer, after) := selection.step next
    (answer, after) :: after.run rest

end Showcase.Selection
