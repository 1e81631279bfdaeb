import Showcase.Fault

namespace Showcase.Json

inductive Fault where
  | malformed
  | truncated
  | value (fault : ValueFault)
deriving DecidableEq

def isBlank (c : Char) : Bool := c == ' ' || c == '\n' || c == '\t' || c == '\r'

def skipBlanks (text : List Char) : List Char := text.dropWhile isBlank

def expect (c : Char) : List Char → Except Fault (List Char)
  | [] => .error .truncated
  | d :: rest => if d = c then .ok rest else .error .malformed

def expectAll : List Char → List Char → Except Fault (List Char)
  | [], text => .ok text
  | c :: word, text => (expect c text).bind (expectAll word)

theorem expect_length {c : Char} {text rest : List Char} (read : expect c text = .ok rest) :
    rest.length < text.length := by
  cases text with
  | nil => simp [expect] at read
  | cons d tail =>
    by_cases same : d = c <;> simp [expect, same] at read
    simp [← read]

end Showcase.Json
