namespace Showcase.Text

def trimStart (p : Char → Bool) (text : List Char) : List Char := text.dropWhile p

def trimEnd (p : Char → Bool) (text : List Char) : List Char := (text.reverse.dropWhile p).reverse

def trim (p : Char → Bool) (text : List Char) : List Char := trimEnd p (trimStart p text)

def isSlash (c : Char) : Bool := c == '/'

def segments : List Char → List (List Char)
  | [] => [[]]
  | c :: rest =>
    if isSlash c then [] :: segments rest
    else match segments rest with
      | [] => [[c]]
      | first :: others => (c :: first) :: others

def trimSlashes (text : String) : String := String.ofList (trim isSlash text.toList)

def trimTrailingSlashes (text : String) : String := String.ofList (trimEnd isSlash text.toList)

def contains (part : List Char) : List Char → Bool
  | [] => part.isEmpty
  | c :: rest => part.isPrefixOf (c :: rest) || contains part rest

end Showcase.Text
