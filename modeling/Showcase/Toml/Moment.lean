import Showcase.Text.Mark
import Showcase.Toml.Number

namespace Showcase.Toml

open Text (mark?)

def takeDecimal? (count : Nat) (text : List Char) : Option (Nat × List Char) := do
  guard (count ≤ text.length)
  let n ← Text.number? 10 (text.take count)
  return (n, text.drop count)

def inRange? (low high : Nat) (read : Option (Nat × List Char)) : Option (Nat × List Char) :=
  read.filter fun (n, _) => low ≤ n && n ≤ high

def isLeap (year : Nat) : Bool := year % 4 == 0 && (year % 100 != 0 || year % 400 == 0)

def daysIn (year month : Nat) : Nat :=
  if month = 2 then if isLeap year then 29 else 28
  else if month ∈ [4, 6, 9, 11] then 30
  else 31

def date? (text : List Char) : Option (List Char) := do
  let (year, rest) ← takeDecimal? 4 text
  let rest ← mark? '-' rest
  let (month, rest) ← inRange? 1 12 (takeDecimal? 2 rest)
  let rest ← mark? '-' rest
  let (_, rest) ← inRange? 1 (daysIn year month) (takeDecimal? 2 rest)
  return rest

def hourMinute? (text : List Char) : Option (List Char) := do
  let (_, rest) ← inRange? 0 23 (takeDecimal? 2 text)
  let rest ← mark? ':' rest
  let (_, rest) ← inRange? 0 59 (takeDecimal? 2 rest)
  return rest

def time? (text : List Char) : Option (List Char) := do
  let rest ← hourMinute? text
  let rest ← mark? ':' rest
  let (_, rest) ← inRange? 0 60 (takeDecimal? 2 rest)
  match rest with
  | '.' :: behind =>
    guard (behind.head?.any Char.isDigit)
    return behind.dropWhile Char.isDigit
  | _ => return rest

def offset? : List Char → Option (List Char)
  | [] => some []
  | c :: rest =>
    if c = 'Z' ∨ c = 'z' then some rest
    else if c = '+' ∨ c = '-' then hourMinute? rest
    else some (c :: rest)

/-- The time that may follow a date; a blank that no time follows ends the date. -/
def timeOfDate? : List Char → Option (List Char)
  | [] => some []
  | c :: rest =>
    if c = 'T' ∨ c = 't' ∨ c = ' ' then
      match time? rest with
      | some behind => offset? behind
      | none => some (c :: rest)
    else some (c :: rest)

def moment? (text : List Char) : Option (Value × List Char) := do
  let rest ← ((date? text).bind timeOfDate?).or (time? text)
  return (.moment (spanTo text rest), rest)

end Showcase.Toml
