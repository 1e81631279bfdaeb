import Showcase.Record.Basic
import Showcase.Toml.Value

namespace Showcase.Toml

open Record

def text (value : Value) : Except ValueFault String :=
  match value with
  | .text content => .ok content
  | _ => .error .invalidType

def variant {α : Type} (ofName? : String → Option α) (value : Value) : Except ValueFault α := do
  match ofName? (← text value) with
  | some a => return a
  | none => throw .unknownVariant

def scalar : (kind : Kind) → Value → Except ValueFault kind.Value
  | .text, value => text value
  | .id, value => do
    let raw ← text value
    match SampleId.ofText? raw with
    | some id => return id
    | none => throw (.invalidId raw)
  | .flag, value =>
    match value with
    | .boolean b => .ok b
    | _ => .error .invalidType
  | .code, value => variant ErrorCode.ofName? value
  | .mode, value => variant DeployMode.ofName? value

def fill {fields : List Field} : Members → Draft fields → Except ValueFault (Draft fields)
  | [], draft => .ok draft
  | (key, value) :: rest, draft =>
    match Slot.find? key fields with
    | none => fill rest draft
    | some slot => do
      let value ← scalar slot.kind value
      fill rest (draft.set slot value)

def row : (fields : List Field) → Option (Row fields) → List Value → Except ValueFault (Row fields)
  | [], _, _ => .ok ()
  | field :: fields, defaults, value :: rest => do
    let value ← scalar field.kind value
    let tail ← row fields (defaults.map Prod.snd) rest
    return (value, tail)
  | _ :: _, some defaults, [] => .ok defaults
  | _ :: _, none, [] => .error .invalidLength

def record {α : Type} (layout : Layout α) : Value → Except ValueFault α
  | .table _ members => do
    let draft ← fill members (Draft.empty layout.fields)
    layout.finish draft
  | .moment _ => layout.finish (Draft.empty layout.fields)
  | .array _ items => (row layout.fields layout.defaults items).map layout.ofRow
  | _ => .error .invalidType

def list {α : Type} (item : Value → Except ValueFault α) : Value → Except ValueFault (List α)
  | .array _ items => items.mapM item
  | _ => .error .invalidType

end Showcase.Toml
