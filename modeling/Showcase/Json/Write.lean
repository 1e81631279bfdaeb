import Showcase.Record.Basic

namespace Showcase.Json

open Record

def hexDigit (n : Nat) : Char := if n < 10 then Char.ofNat (0x30 + n) else Char.ofNat (0x57 + n)

def escapeChar (c : Char) : List Char :=
  if c = '"' then ['\\', '"']
  else if c = '\\' then ['\\', '\\']
  else if c = '\x08' then ['\\', 'b']
  else if c = '\x0c' then ['\\', 'f']
  else if c = '\n' then ['\\', 'n']
  else if c = '\r' then ['\\', 'r']
  else if c = '\t' then ['\\', 't']
  else if c.toNat < 0x20 then ['\\', 'u', '0', '0', hexDigit (c.toNat / 16), hexDigit (c.toNat % 16)]
  else [c]

def quote (content : String) : String := String.ofList ('"' :: content.toList.flatMap escapeChar ++ ['"'])

def scalarText : (kind : Kind) → kind.Value → String
  | .id, id => quote id.text
  | .text, content => quote content
  | .flag, b => if b then "true" else "false"
  | .code, code => quote code.name
  | .mode, mode => quote mode.name

def rowTexts : (fields : List Field) → Row fields → List (String × String)
  | [], _ => []
  | field :: fields, (value, rest) => (quote field.name, scalarText field.kind value) :: rowTexts fields rest

def memberTexts {α : Type} (layout : Layout α) (a : α) : List (String × String) :=
  rowTexts layout.fields (layout.toRow a)

def compact {α : Type} (layout : Layout α) (a : α) : String :=
  "\x7b" ++ String.intercalate "," ((memberTexts layout a).map fun (name, value) => name ++ ":" ++ value) ++ "\x7d"

def compactList {α : Type} (layout : Layout α) (items : List α) : String :=
  "[" ++ String.intercalate "," (items.map (compact layout)) ++ "]"

def pretty {α : Type} (layout : Layout α) (a : α) : String :=
  "\x7b\n" ++
    String.intercalate ",\n" ((memberTexts layout a).map fun (name, value) => "  " ++ name ++ ": " ++ value) ++
    "\n\x7d"

end Showcase.Json
