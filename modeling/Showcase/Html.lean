namespace Showcase.Html

def escapeChar : Char → List Char
  | '&' => ['&', 'a', 'm', 'p', ';']
  | '<' => ['&', 'l', 't', ';']
  | '>' => ['&', 'g', 't', ';']
  | '"' => ['&', 'q', 'u', 'o', 't', ';']
  | '\'' => ['&', '#', '3', '9', ';']
  | c => [c]

def escapeChars (raw : List Char) : List Char := raw.flatMap escapeChar

def escape (raw : String) : String := String.ofList (escapeChars raw.toList)

inductive Part where
  | markup (content : String)
  | text (content : String)
deriving DecidableEq

def Part.render : Part → String
  | .markup content => content
  | .text content => escape content

def render (parts : List Part) : String := String.join (parts.map Part.render)

end Showcase.Html
