import Showcase.Json.Skip
import Showcase.Record.Basic
/-!
Records in JSON text. A record is an object, or an array of its fields in order. A variant is its name, or an
object with its name and null.
-/
namespace Showcase.Json

open Record

def fail {α : Type} (fault : ValueFault) : Except Fault α := .error (.value fault)

/-- The fault of a value that stands where another type is wanted. Its own faults come first. -/
def misplaced : List Char → Fault
  | [] => .truncated
  | c :: rest =>
    if c = '[' ∨ c = '\x7b' then .value .invalidType
    else
      let read := match c with
        | 'n' => expectAll ['u', 'l', 'l'] rest
        | 't' => expectAll ['r', 'u', 'e'] rest
        | 'f' => expectAll ['a', 'l', 's', 'e'] rest
        | '"' => (quotedBody rest).map Prod.snd
        | '-' => measureNumber rest
        | _ => if c.isDigit then measureNumber (c :: rest) else .error .malformed
      match read with
      | .ok _ => .value .invalidType
      | .error fault => fault

def text (input : List Char) : Except Fault (String × List Char) :=
  match skipBlanks input with
  | '"' :: rest => (quotedBody rest).map fun (content, rest) => (String.ofList content, rest)
  | other => .error (misplaced other)

def flag (input : List Char) : Except Fault (Bool × List Char) :=
  match skipBlanks input with
  | 't' :: rest => (expectAll ['r', 'u', 'e'] rest).map (true, ·)
  | 'f' :: rest => (expectAll ['a', 'l', 's', 'e'] rest).map (false, ·)
  | other => .error (misplaced other)

def null (input : List Char) : Except Fault (List Char) :=
  match skipBlanks input with
  | 'n' :: rest => expectAll ['u', 'l', 'l'] rest
  | other => .error (misplaced other)

def sampleId (input : List Char) : Except Fault (SampleId × List Char) := do
  let (raw, rest) ← text input
  match SampleId.ofText? raw with
  | some id => return (id, rest)
  | none => fail (.invalidId raw)

def variantName {α : Type} (ofName? : String → Option α) (input : List Char) : Except Fault (α × List Char) := do
  let (name, rest) ← text input
  match ofName? name with
  | some a => return (a, rest)
  | none => fail .unknownVariant

def variant {α : Type} (ofName? : String → Option α) (input : List Char) : Except Fault (α × List Char) :=
  match skipBlanks input with
  | [] => .error .truncated
  | '"' :: rest => variantName ofName? ('"' :: rest)
  | '\x7b' :: rest => do
    let (a, rest) ← variantName ofName? rest
    let rest ← expect ':' (skipBlanks rest)
    let rest ← null rest
    let rest ← expect '\x7d' (skipBlanks rest)
    return (a, rest)
  | _ => .error .malformed

def scalar : (kind : Kind) → List Char → Except Fault (kind.Value × List Char)
  | .id => sampleId
  | .text => text
  | .flag => flag
  | .code => variant ErrorCode.ofName?
  | .mode => variant DeployMode.ofName?

/-- Whether a further key follows: if so with the text behind its quote, if not with the text behind the object. -/
def nextKey (first : Bool) (input : List Char) : Except Fault (Bool × List Char) :=
  match skipBlanks input with
  | [] => .error .truncated
  | c :: rest =>
    if c = '\x7d' then .ok (false, rest)
    else if first then (expect '"' (c :: rest)).map (true, ·)
    else if c = ',' then (expect '"' (skipBlanks rest)).map (true, ·)
    else .error .malformed

def members {fields : List Field} :
    Nat → Bool → Draft fields → List Char → Except Fault (Draft fields × List Char)
  | 0, _, _, _ => .error .truncated
  | rounds + 1, first, draft, input => do
    let (more, rest) ← nextKey first input
    if !more then return (draft, rest)
    let (key, rest) ← quotedBody rest
    match Slot.find? (String.ofList key) fields with
    | none =>
      let rest ← expect ':' (skipBlanks rest)
      let rest ← skipValue rest
      members rounds false draft rest
    | some slot =>
      if (draft.get? slot).isSome then fail (.duplicateField slot.name)
      let rest ← expect ':' (skipBlanks rest)
      let (value, rest) ← scalar slot.kind rest
      members rounds false (draft.set slot value) rest

def nextElement (first : Bool) (input : List Char) : Except Fault (Option (List Char)) :=
  match skipBlanks input with
  | [] => .error .truncated
  | c :: rest =>
    if c = ']' then .ok none
    else if first then .ok (some (c :: rest))
    else if c = ',' then
      match skipBlanks rest with
      | [] => .error .truncated
      | d :: behind => if d = ']' then .error .malformed else .ok (some (d :: behind))
    else .error .malformed

def row :
    (fields : List Field) → Option (Row fields) → Bool → List Char → Except Fault (Row fields × List Char)
  | [], _, _, input => (expect ']' (skipBlanks input)).map ((), ·)
  | field :: fields, defaults, first, input => do
    match ← nextElement first input with
    | some input =>
      let (value, rest) ← scalar field.kind input
      let (tail, rest) ← row fields (defaults.map Prod.snd) false rest
      return ((value, tail), rest)
    | none =>
      match defaults with
      | some defaults =>
        let rest ← expect ']' (skipBlanks input)
        return (defaults, rest)
      | none => fail .invalidLength

def record {α : Type} (layout : Layout α) (input : List Char) : Except Fault (α × List Char) :=
  match skipBlanks input with
  | '\x7b' :: rest => do
    let (draft, rest) ← members (rest.length + 1) true (Draft.empty layout.fields) rest
    match layout.finish draft with
    | .ok a => return (a, rest)
    | .error fault => fail fault
  | '[' :: rest => (row layout.fields layout.defaults true rest).map fun (row, rest) => (layout.ofRow row, rest)
  | other => .error (misplaced other)

def document {α : Type} (read : List Char → Except Fault (α × List Char)) (input : String) : Except Fault α := do
  let (a, rest) ← read input.toList
  if (skipBlanks rest).isEmpty then return a else throw .malformed

end Showcase.Json
