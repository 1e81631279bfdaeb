import Showcase.Double
import Showcase.Json.Basic
import Showcase.Text.Hex

namespace Showcase.Json

def startsWithDigit (text : List Char) : Bool := text.head?.any Char.isDigit

def skipDigits (text : List Char) : List Char := text.dropWhile Char.isDigit

def isExponentMark (c : Char) : Bool := c == 'e' || c == 'E'

def exponentSign : List Char → Bool × List Char
  | '+' :: rest => (false, rest)
  | '-' :: rest => (true, rest)
  | text => (false, text)

def skipDigits1 (text : List Char) : Except Fault (List Char) :=
  if startsWithDigit text then .ok (skipDigits text) else .error .malformed

def skipExponent : List Char → Except Fault (List Char)
  | [] => .ok []
  | c :: rest => if isExponentMark c then skipDigits1 (exponentSign rest).2 else .ok (c :: rest)

def skipFraction : List Char → Except Fault (List Char)
  | '.' :: rest => (skipDigits1 rest).bind skipExponent
  | text => skipExponent text

def skipNumber : List Char → Except Fault (List Char)
  | '0' :: rest => if startsWithDigit rest then .error .malformed else skipFraction rest
  | text => (skipDigits1 text).bind skipFraction

def digitValue (c : Char) : Nat := (Text.digitIn? 10 c).getD 0

def absorb (significand : Nat) : List Char → Nat × Nat × List Char
  | [] => (significand, 0, [])
  | c :: rest =>
    let next := significand * 10 + digitValue c
    if c.isDigit && next < 0x10000000000000000 then
      let (significand, taken, behind) := absorb next rest
      (significand, taken + 1, behind)
    else (significand, 0, c :: rest)

def largestPower : Int := 308

def inRange (significand : Nat) (exponent : Int) : Bool :=
  if significand = 0 ∨ exponent < 0 then true
  else if largestPower < exponent then false
  else Double.round significand * Double.round (Nat.pow 10 exponent.toNat) < Double.limit

def checkRange (significand : Nat) (exponent : Int) (rest : List Char) : Except Fault (List Char) :=
  if inRange significand exponent then .ok rest else .error .malformed

def measureExponent (significand : Nat) (exponent : Int) (text : List Char) : Except Fault (List Char) :=
  let (negative, text) := exponentSign text
  match text with
  | [] => .error .truncated
  | _ :: _ =>
    if startsWithDigit text then
      let n : Int := (Text.number? 10 (text.takeWhile Char.isDigit)).getD 0
      checkRange significand (if negative then exponent - n else exponent + n) (skipDigits text)
    else .error .malformed

def measureEnd (significand : Nat) (exponent : Int) : List Char → Except Fault (List Char)
  | [] => checkRange significand exponent []
  | c :: rest =>
    if isExponentMark c then measureExponent significand exponent rest
    else checkRange significand exponent (c :: rest)

def measureFraction (significand : Nat) (exponent : Int) : List Char → Except Fault (List Char)
  | '.' :: rest =>
    if startsWithDigit rest then
      let (significand, taken, rest) := absorb significand rest
      measureEnd significand (exponent - taken) (skipDigits rest)
    else if rest.isEmpty then .error .truncated
    else .error .malformed
  | text => measureEnd significand exponent text

def measureNumber : List Char → Except Fault (List Char)
  | [] => .error .truncated
  | '0' :: rest => if startsWithDigit rest then .error .malformed else measureFraction 0 0 rest
  | text =>
    if startsWithDigit text then
      let (significand, _, rest) := absorb 0 text
      measureFraction significand (rest.takeWhile Char.isDigit).length (skipDigits rest)
    else .error .malformed

end Showcase.Json
