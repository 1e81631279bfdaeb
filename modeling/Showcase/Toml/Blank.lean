namespace Showcase.Toml

def isBlank (c : Char) : Bool := c == ' ' || c == '\t'

def isCommentChar (c : Char) : Bool := c == '\t' || (0x20 ≤ c.toNat && c.toNat != 0x7F)

def skipBlanks (text : List Char) : List Char := text.dropWhile isBlank

def newline? : List Char → Option (List Char)
  | '\n' :: rest => some rest
  | '\r' :: '\n' :: rest => some rest
  | _ => none

def skipComment : List Char → List Char
  | '#' :: rest => rest.dropWhile isCommentChar
  | text => text

def lineEnd? (text : List Char) : Option (List Char) :=
  match skipComment (skipBlanks text) with
  | [] => some []
  | rest => newline? rest

def skipGap : List Char → List Char
  | [] => []
  | '\r' :: '\n' :: rest => skipGap rest
  | c :: rest => if isBlank c || c == '\n' then skipGap rest else c :: rest

def skipFiller? (inComment : Bool) : List Char → Option (List Char)
  | [] => if inComment then none else some []
  | '\r' :: '\n' :: rest => skipFiller? false rest
  | c :: rest =>
    if c == '\n' then skipFiller? false rest
    else if inComment then if isCommentChar c then skipFiller? true rest else none
    else if c == '#' then skipFiller? true rest
    else if isBlank c then skipFiller? false rest
    else some (c :: rest)

theorem skipGap_length (text : List Char) : (skipGap text).length ≤ text.length := by
  fun_induction skipGap text <;> simp_all <;> omega

end Showcase.Toml
