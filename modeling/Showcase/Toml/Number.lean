import Showcase.Double
import Showcase.Text.Hex
import Showcase.Toml.Value

namespace Showcase.Toml

def moreDigits (p : Char → Bool) : List Char → List Char × List Char
  | [] => ([], [])
  | '_' :: c :: rest =>
    if p c then
      let (digits, behind) := moreDigits p rest
      (c :: digits, behind)
    else ([], '_' :: c :: rest)
  | c :: rest =>
    if p c then
      let (digits, behind) := moreDigits p rest
      (c :: digits, behind)
    else ([], c :: rest)

def digits? (p : Char → Bool) : List Char → Option (List Char × List Char)
  | [] => none
  | c :: rest =>
    if p c then
      let (digits, behind) := moreDigits p rest
      some (c :: digits, behind)
    else none

def wholeDigits? : List Char → Option (List Char × List Char)
  | '0' :: rest => some (['0'], rest)
  | text => digits? Char.isDigit text

def sign : List Char → Bool × List Char
  | '+' :: rest => (false, rest)
  | '-' :: rest => (true, rest)
  | text => (false, text)

def decimal (digits : List Char) : Nat := (Text.number? 10 digits).getD 0

def signed (negative : Bool) (n : Nat) : Int := if negative then -(n : Int) else n

def fitsInteger (n : Int) : Bool := -0x8000000000000000 ≤ n && n < 0x8000000000000000

def integerIn? (base : Nat) (text : List Char) : Option (Value × List Char) := do
  let (digits, rest) ← digits? (fun c => (Text.digitIn? base c).isSome) text
  let n ← Text.number? base digits
  guard (fitsInteger n)
  return (.integer n, rest)

def integer? : List Char → Option (Value × List Char)
  | '0' :: 'x' :: rest => integerIn? 16 rest
  | '0' :: 'o' :: rest => integerIn? 8 rest
  | '0' :: 'b' :: rest => integerIn? 2 rest
  | text => do
    let (negative, rest) := sign text
    let (digits, rest) ← wholeDigits? rest
    let n := signed negative (decimal digits)
    guard (fitsInteger n)
    return (.integer n, rest)

def isExponentMark (c : Char) : Bool := c == 'e' || c == 'E'

def exponent? : List Char → Option (Int × List Char)
  | [] => none
  | c :: rest => do
    guard (isExponentMark c)
    let (negative, rest) := sign rest
    let (digits, rest) ← digits? Char.isDigit rest
    return (signed negative (decimal digits), rest)

def scale? : List Char → Option (List Char × Int × List Char)
  | '.' :: rest => do
    let (fraction, rest) ← digits? Char.isDigit rest
    match rest with
    | [] => return (fraction, 0, rest)
    | c :: _ =>
      if isExponentMark c then
        let (exponent, rest) ← exponent? rest
        return (fraction, exponent, rest)
      else return (fraction, 0, rest)
  | text => do
    let (exponent, rest) ← exponent? text
    return ([], exponent, rest)

def spanTo (text rest : List Char) : String := String.ofList (text.take (text.length - rest.length))

def special? (text : List Char) : Option (Value × List Char) :=
  match (sign text).2 with
  | 'i' :: 'n' :: 'f' :: rest => some (.float (spanTo text rest), rest)
  | 'n' :: 'a' :: 'n' :: rest => some (.float (spanTo text rest), rest)
  | _ => none

/-- A float in digits. One above the range of doubles is refused, one below it is not. -/
def float? (text : List Char) : Option (Value × List Char) := do
  let (negative, rest) := sign text
  let (whole, rest) ← wholeDigits? rest
  let (fraction, exponent, rest) ← scale? rest
  guard (negative || !Double.overflows (decimal (whole ++ fraction)) (exponent - fraction.length))
  return (.float (spanTo text rest), rest)

end Showcase.Toml
