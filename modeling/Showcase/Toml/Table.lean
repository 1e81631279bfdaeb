import Showcase.Toml.Value

namespace Showcase.Toml

def replace (key : String) (value : Value) (members : Members) : Members :=
  members.map fun (k, v) => if k = key then (k, value) else (k, v)

def insertNew (key : String) (value : Value) (members : Members) : Option Members :=
  if (members.lookup key).isNone then some (members ++ [(key, value)]) else none

/-- Dots extend what dots made. They may pass a table that headers imply, but leave no value in it. -/
def opensToDots (last : Bool) : Form → Bool
  | .dotted => true
  | .implied => !last
  | .inline | .header => false

def insert (key : String) (value : Value) : List String → Members → Option Members
  | [], members => insertNew key value members
  | step :: path, members =>
    match members.lookup step with
    | none => (insert key value path []).map fun inner => members ++ [(step, .table .dotted inner)]
    | some (.table form inner) =>
      if opensToDots path.isEmpty form then
        (insert key value path inner).map fun inner => replace step (.table form inner) members
      else none
    | some (.array true items) =>
      match items.getLast?, path with
      | some (.table form inner), _ :: _ =>
        (insert key value path inner).map fun inner =>
          replace step (.array true (items.dropLast ++ [.table form inner])) members
      | _, _ => none
    | some _ => none

structure Pair where
  path : List String
  key : String
  value : Value

def insertAll (pairs : List Pair) (members : Members) : Option Members :=
  pairs.foldlM (fun members pair => insert pair.key pair.value pair.path members) members

/-- Changes the table that a header's path leads to; a header passes every table that is not closed, and the last
element of an array that headers write. -/
def editAt (change : Members → Option Members) : List String → Members → Option Members
  | [], members => change members
  | step :: path, members =>
    match members.lookup step with
    | none => (editAt change path []).map fun inner => members ++ [(step, .table .implied inner)]
    | some (.table form inner) =>
      if form = .inline then none
      else (editAt change path inner).map fun inner => replace step (.table form inner) members
    | some (.array true items) =>
      match items.getLast? with
      | some (.table form inner) =>
        (editAt change path inner).map fun inner =>
          replace step (.array true (items.dropLast ++ [.table form inner])) members
      | _ => none
    | some _ => none

/-- Opens a table under a key and fills it. An implied table is taken over and moves to the end. -/
def openTable (key : String) (pairs : List Pair) (members : Members) : Option Members := do
  let content ← match members.lookup key with
    | none => some []
    | some (.table .implied inner) => some inner
    | some _ => none
  let content ← insertAll pairs content
  return members.filter (fun member => member.1 ≠ key) ++ [(key, .table .header content)]

def openElement (key : String) (pairs : List Pair) (members : Members) : Option Members := do
  let element := Value.table .header (← insertAll pairs [])
  match members.lookup key with
  | none => return members ++ [(key, .array true [element])]
  | some (.array true items) => return replace key (.array true (items ++ [element])) members
  | some _ => none

inductive Opening where
  | table
  | element
deriving DecidableEq

structure Block where
  opening : Opening
  path : List String
  key : String
  pairs : List Pair

def Block.apply (block : Block) (members : Members) : Option Members :=
  let change := match block.opening with
    | .table => openTable block.key block.pairs
    | .element => openElement block.key block.pairs
  editAt change block.path members

def assemble (pairs : List Pair) (blocks : List Block) : Option Members := do
  let members ← insertAll pairs []
  blocks.foldlM (fun members block => block.apply members) members

end Showcase.Toml
