/-!
TOML values. A table remembers how it came to be, because that decides which later keys may extend it.
-/
namespace Showcase.Toml

inductive Form where
  | inline
  | header
  /-- On the way to a header, without a header of its own so far. -/
  | implied
  | dotted
deriving DecidableEq

inductive Value where
  | text (content : String)
  | integer (n : Int)
  | float (literal : String)
  | boolean (b : Bool)
  | moment (literal : String)
  | array (extensible : Bool) (items : List Value)
  | table (form : Form) (members : List (String × Value))

abbrev Members := List (String × Value)

end Showcase.Toml
