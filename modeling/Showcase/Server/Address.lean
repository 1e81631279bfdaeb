import Showcase.FileTree.Basic
import Showcase.Text.Hex
import Showcase.Text.Mark

namespace Showcase.Server

inductive Host where
  | v4 (octets : List Nat)
  | v6 (groups : List Nat) (scope : Nat)
deriving DecidableEq

structure SocketAddress where
  host : Host
  number : Nat
deriving DecidableEq

namespace SocketAddress

open Text (mark?)

def number? (base bound : Nat) (text : List Char) : Option (List Char × Nat × List Char) := do
  let isDigit := fun c => (Text.digitIn? base c).isSome
  let digits := text.takeWhile isDigit
  guard (!digits.isEmpty)
  let n ← Text.number? base digits
  guard (n < bound)
  return (digits, n, text.dropWhile isDigit)

def octet? (text : List Char) : Option (Nat × List Char) := do
  let (digits, n, rest) ← number? 10 256 text
  guard (digits.length ≤ 3 && (digits.length = 1 || digits.head? != some '0'))
  return (n, rest)

def octets? (text : List Char) : Option (List Nat × List Char) := do
  let (a, rest) ← octet? text
  let (b, rest) ← (mark? '.' rest).bind octet?
  let (c, rest) ← (mark? '.' rest).bind octet?
  let (d, rest) ← (mark? '.' rest).bind octet?
  return ([a, b, c, d], rest)

def group? (text : List Char) : Option (Nat × List Char) := do
  let (digits, n, rest) ← number? 16 0x10000 text
  guard (digits.length ≤ 4)
  return (n, rest)

def embedded? (text : List Char) : Option (List Nat × List Char) := do
  match ← octets? text with
  | ([a, b, c, d], rest) => return ([a * 256 + b, c * 256 + d], rest)
  | _ => none

def groups : (limit : Nat) → (first : Bool) → List Char → List Nat × Bool × List Char
  | 0, _, text => ([], false, text)
  | left + 1, first, text =>
    let behind := if first then some text else mark? ':' text
    match if left = 0 then none else behind.bind embedded? with
    | some (pair, rest) => (pair, true, rest)
    | none =>
      match behind.bind group? with
      | none => ([], false, text)
      | some (group, rest) =>
        let (more, octets, rest) := groups left false rest
        (group :: more, octets, rest)

/-- Eight groups, or fewer with one gap that stands for at least one zero group. -/
def groups? (text : List Char) : Option (List Nat × List Char) := do
  let (head, octets, rest) := groups 8 true text
  if head.length = 8 then return (head, rest)
  guard (!octets)
  let rest ← mark? ':' rest
  let rest ← mark? ':' rest
  let (tail, _, rest) := groups (7 - head.length) true rest
  return (head ++ List.replicate (8 - head.length - tail.length) 0 ++ tail, rest)

def scope? : List Char → Option (Nat × List Char)
  | '%' :: rest => (number? 10 0x100000000 rest).map fun (_, n, rest) => (n, rest)
  | text => some (0, text)

def host? (text : List Char) : Option (Host × List Char) :=
  match text with
  | '[' :: rest => do
    let (groups, rest) ← groups? rest
    let (scope, rest) ← scope? rest
    let rest ← mark? ']' rest
    return (.v6 groups scope, rest)
  | _ => (octets? text).map fun (octets, rest) => (.v4 octets, rest)

def ofText? (text : String) : Option SocketAddress := do
  let (host, rest) ← host? text.toList
  let rest ← mark? ':' rest
  match ← number? 10 0x10000 rest with
  | (_, number, []) => return ⟨host, number⟩
  | _ => none

def lastReservedNumber : Nat := 1023

def bind (address : SocketAddress) : Except IoFault Unit :=
  if 0 < address.number ∧ address.number ≤ lastReservedNumber then .error .permissionDenied else .ok ()

end SocketAddress

end Showcase.Server
