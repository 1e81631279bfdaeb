import Showcase.View
/-!
Which sample is shown. The view of the active sample is computed on the first read after a change and kept
until the next one.
-/
namespace Showcase

structure Selection where
  registry : Registry
  deployment : Deployment
  active : Fin registry.entries.length
  cached : Option View
  generation : Nat

namespace Selection

inductive Outcome where
  | changed (previous current : SampleId)
  | unchanged
deriving DecidableEq

def start (registry : Registry) (deployment : Deployment) : Selection :=
  ⟨registry, deployment, registry.firstPosition, none, 0⟩

def generationLimit : Nat := 18446744073709551616

def activeEntry (selection : Selection) : SampleEntry := selection.registry.entryAt selection.active

def activeId (selection : Selection) : SampleId := selection.activeEntry.id

/-- Moves to a known sample; the generation counts the moves that change the active sample. -/
def select (selection : Selection) (id : String) : Except Error (Outcome × Selection) :=
  match selection.registry.position? id with
  | none => .error (.unknownSample id)
  | some position =>
    if position = selection.active then .ok (.unchanged, selection)
    else
      let generation := (selection.generation + 1) % generationLimit
      let moved := { selection with active := position, cached := none, generation }
      .ok (.changed selection.activeId moved.activeId, moved)

def freshView (selection : Selection) : View :=
  View.ofEntry selection.registry selection.deployment selection.activeEntry

def view (selection : Selection) : View × Selection :=
  match selection.cached with
  | some view => (view, selection)
  | none =>
    let view := selection.freshView
    (view, { selection with cached := some view })

def nav (selection : Selection) : List NavItem :=
  NavItem.all selection.registry selection.deployment selection.active

end Selection

end Showcase
