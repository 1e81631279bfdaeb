import Showcase.Json.Number
import Showcase.Json.Quoted

namespace Showcase.Json

inductive Frame where
  | array
  | object
deriving DecidableEq

def Frame.closer : Frame → Char
  | array => ']'
  | object => '\x7d'

def Frame.skipKey : Frame → List Char → Except Fault (List Char)
  | array, text => .ok text
  | object, text => do
    let rest ← expect '"' (skipBlanks text)
    let rest ← skipQuoted rest
    expect ':' (skipBlanks rest)

def skipScalar : List Char → Except Fault (List Char)
  | [] => .error .truncated
  | 'n' :: rest => expectAll ['u', 'l', 'l'] rest
  | 't' :: rest => expectAll ['r', 'u', 'e'] rest
  | 'f' :: rest => expectAll ['a', 'l', 's', 'e'] rest
  | '"' :: rest => skipQuoted rest
  | '-' :: rest => skipNumber rest
  | c :: rest => if c.isDigit then skipNumber (c :: rest) else .error .malformed

inductive Progress where
  | done (rest : List Char)
  | value (stack : List Frame) (rest : List Char)

def afterValue : List Frame → List Char → Except Fault Progress
  | [], text => .ok (.done text)
  | frame :: stack, text =>
    match skipBlanks text with
    | [] => .error .truncated
    | c :: rest =>
      if c = ',' then (frame.skipKey rest).map (.value (frame :: stack))
      else if c = frame.closer then afterValue stack rest
      else .error .malformed

def openFrame (frame : Frame) (stack : List Frame) (text : List Char) : Except Fault Progress :=
  match skipBlanks text with
  | [] => .error .truncated
  | c :: rest =>
    if c = frame.closer then afterValue stack rest
    else (frame.skipKey (c :: rest)).map (.value (frame :: stack))

def skipOne (stack : List Frame) (text : List Char) : Except Fault Progress :=
  match skipBlanks text with
  | '[' :: rest => openFrame .array stack rest
  | '\x7b' :: rest => openFrame .object stack rest
  | text => (skipScalar text).bind (afterValue stack)

/-- Each round takes at least one character. -/
def skipRounds : Nat → List Frame → List Char → Except Fault (List Char)
  | 0, _, _ => .error .truncated
  | rounds + 1, stack, text => do
    match ← skipOne stack text with
    | .done rest => return rest
    | .value stack rest => skipRounds rounds stack rest

def skipValue (text : List Char) : Except Fault (List Char) := skipRounds (text.length + 1) [] text

end Showcase.Json
