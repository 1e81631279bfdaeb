import Showcase.Deployment
/-!
Records: values with a fixed list of named fields, as they stand in documents. A layout says which fields a type
has. Documents of any format fill a draft, field by field, and finish it to a row.
-/
namespace Showcase

def ErrorCode.name : ErrorCode → String
  | notFound => "not_found"
  | validation => "validation"
  | configuration => "configuration"
  | internal => "internal"

def ErrorCode.all : List ErrorCode := [.notFound, .validation, .configuration, .internal]

def ErrorCode.ofName? (name : String) : Option ErrorCode := all.find? fun code => code.name == name

def DeployMode.all : List DeployMode := [.development, .production]

def DeployMode.ofName? (name : String) : Option DeployMode := all.find? fun mode => mode.name == name

namespace Record

inductive Kind where
  | id
  | text
  | flag
  | code
  | mode
deriving DecidableEq

abbrev Kind.Value : Kind → Type
  | .id => SampleId
  | .text => String
  | .flag => Bool
  | .code => ErrorCode
  | .mode => DeployMode

structure Field where
  name : String
  kind : Kind
deriving DecidableEq

abbrev Row : List Field → Type
  | [] => Unit
  | field :: rest => field.kind.Value × Row rest

abbrev Draft : List Field → Type
  | [] => Unit
  | field :: rest => Option field.kind.Value × Draft rest

inductive Slot : List Field → Type where
  | here {field : Field} {rest : List Field} : Slot (field :: rest)
  | there {field : Field} {rest : List Field} (slot : Slot rest) : Slot (field :: rest)

namespace Slot

def kind : {fields : List Field} → Slot fields → Kind
  | field :: _, here => field.kind
  | _ :: _, there slot => slot.kind

def name : {fields : List Field} → Slot fields → String
  | field :: _, here => field.name
  | _ :: _, there slot => slot.name

def find? (name : String) : (fields : List Field) → Option (Slot fields)
  | [] => none
  | field :: rest => if field.name = name then some here else (find? name rest).map there

end Slot

namespace Draft

def empty : (fields : List Field) → Draft fields
  | [] => ()
  | _ :: rest => (none, empty rest)

def get? : {fields : List Field} → Draft fields → (slot : Slot fields) → Option slot.kind.Value
  | _ :: _, (value, _), .here => value
  | _ :: _, (_, rest), .there slot => get? rest slot

def set : {fields : List Field} → Draft fields → (slot : Slot fields) → slot.kind.Value → Draft fields
  | _ :: _, (_, rest), .here, value => (some value, rest)
  | _ :: _, (first, rest), .there slot, value => (first, set rest slot value)

def finish : (fields : List Field) → Option (Row fields) → Draft fields → Except ValueFault (Row fields)
  | [], _, _ => .ok ()
  | field :: rest, defaults, (value, others) =>
    match value.or (defaults.map Prod.fst) with
    | none => .error (.missingField field.name)
    | some value => (finish rest (defaults.map Prod.snd) others).map fun tail => (value, tail)

end Draft

structure Layout (α : Type) where
  fields : List Field
  ofRow : Row fields → α
  toRow : α → Row fields
  defaults : Option (Row fields) := none

def Layout.finish {α : Type} (layout : Layout α) (draft : Draft layout.fields) : Except ValueFault α :=
  (draft.finish layout.fields layout.defaults).map layout.ofRow

end Record

end Showcase
