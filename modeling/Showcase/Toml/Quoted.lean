import Showcase.Text.Hex
import Showcase.Toml.Blank

namespace Showcase.Toml

def isBasicChar (c : Char) : Bool := isCommentChar c && c != '"' && c != '\\'

def isLiteralChar (c : Char) : Bool := isCommentChar c && c != '\''

def escape? : List Char → Option (Char × List Char)
  | 'b' :: rest => some ('\x08', rest)
  | 't' :: rest => some ('\t', rest)
  | 'n' :: rest => some ('\n', rest)
  | 'f' :: rest => some ('\x0c', rest)
  | 'r' :: rest => some ('\r', rest)
  | '"' :: rest => some ('"', rest)
  | '\\' :: rest => some ('\\', rest)
  | 'u' :: rest => (Text.takeHex? 4 rest).bind fun (n, rest) => (Text.scalar? n).map (·, rest)
  | 'U' :: rest => (Text.takeHex? 8 rest).bind fun (n, rest) => (Text.scalar? n).map (·, rest)
  | _ => none

theorem escape?_length {text rest : List Char} {c : Char} (read : escape? text = some (c, rest)) :
    rest.length < text.length := by
  unfold escape? at read
  split at read
  case h_8 tail =>
    obtain ⟨⟨n, left⟩, taken, eq⟩ := Option.bind_eq_some_iff.mp read
    obtain ⟨_, _, eq⟩ := Option.map_eq_some_iff.mp eq
    have := Text.takeHex?_length taken
    have same : left = rest := (Prod.mk.inj eq).2
    simp [← same]
    omega
  case h_9 tail =>
    obtain ⟨⟨n, left⟩, taken, eq⟩ := Option.bind_eq_some_iff.mp read
    obtain ⟨_, _, eq⟩ := Option.map_eq_some_iff.mp eq
    have := Text.takeHex?_length taken
    have same : left = rest := (Prod.mk.inj eq).2
    simp [← same]
    omega
  all_goals simp_all

def basicBody? (text : List Char) : Option (List Char × List Char) :=
  match text with
  | [] => none
  | c :: rest =>
    if c = '"' then some ([], rest)
    else if c = '\\' then
      match read : escape? rest with
      | none => none
      | some (plain, behind) =>
        have : behind.length < rest.length := escape?_length read
        (basicBody? behind).map fun (content, behind) => (plain :: content, behind)
    else if isBasicChar c then (basicBody? rest).map fun (content, behind) => (c :: content, behind)
    else none
termination_by text.length

def literalBody? : List Char → Option (List Char × List Char)
  | [] => none
  | c :: rest =>
    if c = '\'' then some ([], rest)
    else if isLiteralChar c then (literalBody? rest).map fun (content, behind) => (c :: content, behind)
    else none

/-- What three closing quotes leave: up to two quotes in front of the last three belong to the content. -/
def closing (quote : Char) : List Char → List Char × List Char
  | a :: b :: rest =>
    if a = quote then if b = quote then ([a, b], rest) else ([a], b :: rest) else ([], a :: b :: rest)
  | [a] => if a = quote then ([a], []) else ([], [a])
  | [] => ([], [])

def opens (quote : Char) (text : List Char) : Bool := [quote, quote, quote].isPrefixOf text

def dropFirstNewline (text : List Char) : List Char := (newline? text).getD text

def continuation? (text : List Char) : Option (List Char) := (newline? (skipBlanks text)).map skipGap

theorem newline?_length {text rest : List Char} (read : newline? text = some rest) :
    rest.length < text.length := by
  unfold newline? at read
  split at read
  · simp only [Option.some.injEq] at read
    simp [read]
  · simp only [Option.some.injEq] at read
    simp only [read, List.length_cons]
    omega
  · simp at read

theorem continuation?_length {text rest : List Char} (read : continuation? text = some rest) :
    rest.length < text.length := by
  obtain ⟨left, found, eq⟩ := Option.map_eq_some_iff.mp read
  have shorter := newline?_length found
  have gap := skipGap_length left
  have blanks : (skipBlanks text).length ≤ text.length := (List.dropWhile_sublist _).length_le
  rw [eq] at gap
  omega

def basicLines? (text : List Char) : Option (List Char × List Char) :=
  match text with
  | [] => none
  | '\r' :: '\n' :: rest => (basicLines? rest).map fun (content, behind) => ('\n' :: content, behind)
  | c :: rest =>
    if opens '"' (c :: rest) then some (closing '"' (rest.drop 2))
    else if c = '\\' then
      match gap : continuation? rest with
      | some behind =>
        have : behind.length < rest.length := continuation?_length gap
        basicLines? behind
      | none =>
        match read : escape? rest with
        | none => none
        | some (plain, behind) =>
          have : behind.length < rest.length := escape?_length read
          (basicLines? behind).map fun (content, behind) => (plain :: content, behind)
    else if isCommentChar c || c = '\n' then
      (basicLines? rest).map fun (content, behind) => (c :: content, behind)
    else none
termination_by text.length

def literalLines? : List Char → Option (List Char × List Char)
  | [] => none
  | '\r' :: '\n' :: rest => (literalLines? rest).map fun (content, behind) => ('\n' :: content, behind)
  | c :: rest =>
    if opens '\'' (c :: rest) then some (closing '\'' (rest.drop 2))
    else if isCommentChar c || c = '\n' then
      (literalLines? rest).map fun (content, behind) => (c :: content, behind)
    else none

def quotedLine? : List Char → Option (List Char × List Char)
  | '"' :: rest => basicBody? rest
  | '\'' :: rest => literalBody? rest
  | _ => none

def quoted? (text : List Char) : Option (List Char × List Char) :=
  if opens '"' text then basicLines? (dropFirstNewline (text.drop 3))
  else if opens '\'' text then literalLines? (dropFirstNewline (text.drop 3))
  else quotedLine? text

end Showcase.Toml
