import Showcase.Toml.Moment
import Showcase.Toml.Quoted
import Showcase.Toml.Table

namespace Showcase.Toml

open Text (mark?)

def nestingLimit : Nat := 79

def isBareChar (c : Char) : Bool := c.isAlphanum || c == '-' || c == '_'

def keyPart? (text : List Char) : Option (String × List Char) :=
  match text.takeWhile isBareChar with
  | [] => (quotedLine? text).map fun (content, rest) => (String.ofList content, rest)
  | bare => some (String.ofList bare, text.dropWhile isBareChar)

def keyParts? : Nat → List Char → Option (List String × List Char)
  | 0, _ => none
  | more + 1, text => do
    let (part, rest) ← keyPart? (skipBlanks text)
    match skipBlanks rest with
    | '.' :: rest =>
      let (parts, rest) ← keyParts? more rest
      return (part :: parts, rest)
    | rest => return ([part], rest)

def key? (text : List Char) : Option ((List String × String) × List Char) := do
  let (parts, rest) ← keyParts? nestingLimit text
  let key ← parts.getLast?
  return ((parts.dropLast, key), rest)

abbrev ReadValue := List Char → Option (Value × List Char)

def pair? (value : ReadValue) (text : List Char) : Option (Pair × List Char) := do
  let ((path, key), rest) ← key? text
  let rest ← mark? '=' rest
  let (value, rest) ← value (skipBlanks rest)
  return (⟨path, key, value⟩, rest)

def elements? (value : ReadValue) : Nat → List Char → Option (List Value × List Char)
  | 0, _ => none
  | rounds + 1, text => do
    match ← skipFiller? false text with
    | ']' :: rest => return ([], rest)
    | text =>
      let (item, rest) ← value text
      match ← skipFiller? false rest with
      | ']' :: rest => return ([item], rest)
      | ',' :: rest =>
        let (items, rest) ← elements? value rounds rest
        return (item :: items, rest)
      | _ => none

def inlinePairs? (value : ReadValue) : Nat → List Char → Option (List Pair × List Char)
  | 0, _ => none
  | rounds + 1, text => do
    let (pair, rest) ← pair? value text
    match skipBlanks rest with
    | '\x7d' :: rest => return ([pair], rest)
    | ',' :: rest =>
      let (pairs, rest) ← inlinePairs? value rounds rest
      return (pair :: pairs, rest)
    | _ => none

def inlineTable? (value : ReadValue) (text : List Char) : Option (Value × List Char) := do
  match skipBlanks text with
  | '\x7d' :: rest => return (.table .inline [], rest)
  | _ =>
    let (pairs, rest) ← inlinePairs? value text.length text
    let members ← insertAll pairs []
    return (.table .inline members, rest)

def number? (text : List Char) : Option (Value × List Char) :=
  (moment? text).or ((float? text).or ((special? text).or (integer? text)))

def value? (depth : Nat) (text : List Char) : Option (Value × List Char) :=
  match text with
  | '"' :: _ | '\'' :: _ => (quoted? text).map fun (content, rest) => (.text (String.ofList content), rest)
  | '[' :: rest =>
    match depth with
    | 0 => none
    | depth + 1 =>
      (elements? (value? depth) rest.length rest).map fun (items, rest) => (.array false items, rest)
  | '\x7b' :: rest =>
    match depth with
    | 0 => none
    | depth + 1 => inlineTable? (value? depth) rest
  | 't' :: 'r' :: 'u' :: 'e' :: rest => some (.boolean true, rest)
  | 'f' :: 'a' :: 'l' :: 's' :: 'e' :: rest => some (.boolean false, rest)
  | _ => number? text

inductive Line where
  | pair (pair : Pair)
  | header (opening : Opening) (path : List String) (key : String)

def line? : List Char → Option (Line × List Char)
  | '[' :: '[' :: rest => do
    let ((path, key), rest) ← key? rest
    let rest ← mark? ']' rest
    let rest ← mark? ']' rest
    return (.header .element path key, rest)
  | '[' :: rest => do
    let ((path, key), rest) ← key? rest
    let rest ← mark? ']' rest
    return (.header .table path key, rest)
  | text => (pair? (value? nestingLimit) text).map fun (pair, rest) => (.pair pair, rest)

def isLineStart (c : Char) : Bool := c != '#' && c != '\n' && c != '\r'

def lines? : Nat → List Char → Option (List Line)
  | 0, text => if text.isEmpty then some [] else none
  | rounds + 1, text =>
    match skipBlanks text with
    | [] => some []
    | c :: rest =>
      if isLineStart c then do
        let (line, rest) ← line? (c :: rest)
        let rest ← lineEnd? rest
        let lines ← lines? rounds rest
        return line :: lines
      else (lineEnd? (c :: rest)).bind (lines? rounds)

def blocks : List Line → List Pair × List Block
  | [] => ([], [])
  | .pair pair :: lines =>
    let (pairs, rest) := blocks lines
    (pair :: pairs, rest)
  | .header opening path key :: lines =>
    let (pairs, rest) := blocks lines
    ([], ⟨opening, path, key, pairs⟩ :: rest)

def dropByteOrderMark : List Char → List Char
  | '\ufeff' :: rest => rest
  | text => text

def parse? (document : String) : Option Members := do
  let text := dropByteOrderMark document.toList
  let lines ← lines? text.length text
  let (pairs, blocks) := blocks lines
  assemble pairs blocks

end Showcase.Toml
