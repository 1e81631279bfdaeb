import Showcase.Json.Quoted
import Showcase.Json.Write
import Showcase.Text.Blank
import Showcase.Toml.Quoted

set_option autoImplicit false

namespace Showcase

namespace Text

def hexWord (n : Nat) : List Char :=
  [Json.hexDigit (n / 4096), Json.hexDigit (n / 256 % 16), Json.hexDigit (n / 16 % 16), Json.hexDigit (n % 16)]

theorem hex_digit_read : ∀ n < 16, digitIn? 16 (Json.hexDigit n) = some n := by decide

theorem take_hex_word (n : Nat) (small : n < 65536) (rest : List Char) :
    takeHex? 4 (hexWord n ++ rest) = some (n, rest) := by
  have digits : number? 16 (hexWord n) = some n := by
    have whole : (((0 * 16 + n / 4096) * 16 + n / 256 % 16) * 16 + n / 16 % 16) * 16 + n % 16 = n := by omega
    simp only [number?, hexWord, List.foldlM_cons, List.foldlM_nil, hex_digit_read (n / 4096) (by omega),
      hex_digit_read (n / 256 % 16) (by omega), hex_digit_read (n / 16 % 16) (by omega),
      hex_digit_read (n % 16) (by omega), Option.map_some, Option.bind_eq_bind, Option.bind_some, whole]
    rfl
  have cut : (hexWord n ++ rest).take 4 = hexWord n ∧ (hexWord n ++ rest).drop 4 = rest := ⟨rfl, rfl⟩
  have enough : ¬ (hexWord n ++ rest).length < 4 := by simp [hexWord]
  rw [takeHex?, if_neg enough, cut.1, cut.2, digits]
  rfl

end Text

namespace Json

theorem quoted_body_escape (plain : Char) (rest behind : List Char) (read : escape rest = .ok (plain, behind)) :
    quotedBody ('\\' :: rest) =
      (quotedBody behind).map fun (content, behind) => (plain :: content, behind) := by
  rw [quotedBody, if_neg (by decide), if_pos rfl]
  split
  · rename_i fault failed
    rw [read] at failed
    cases failed
  · rename_i other left found
    rw [read] at found
    cases found
    rfl

theorem escape_unit (unit : Nat) (small : unit < 0xD800) (rest : List Char) :
    escape ('u' :: (Text.hexWord unit ++ rest)) = .ok (Char.ofNat unit, rest) := by
  have read : codeUnit (Text.hexWord unit ++ rest) = .ok (unit, rest) := by
    rw [codeUnit, Text.take_hex_word unit (by omega)]
  have notTrail : isTrail unit = false := by
    simp [isTrail]
    omega
  have notLead : isLead unit = false := by
    simp [isLead]
    omega
  simp only [escape, if_true, codePoint, read, bind, Except.bind, notTrail, notLead, Bool.false_eq_true, if_false]
  rfl

theorem quoted_body_char (c : Char) (tail : List Char) :
    quotedBody (escapeChar c ++ tail) =
      (quotedBody tail).map fun (content, behind) => (c :: content, behind) := by
  unfold escapeChar
  split
  · subst c; exact quoted_body_escape _ _ _ rfl
  split
  · subst c; exact quoted_body_escape _ _ _ rfl
  split
  · subst c; exact quoted_body_escape _ _ _ rfl
  split
  · subst c; exact quoted_body_escape _ _ _ rfl
  split
  · subst c; exact quoted_body_escape _ _ _ rfl
  split
  · subst c; exact quoted_body_escape _ _ _ rfl
  split
  · subst c; exact quoted_body_escape _ _ _ rfl
  split
  · rename_i control
    have word : Text.hexWord c.toNat = ['0', '0', hexDigit (c.toNat / 16), hexDigit (c.toNat % 16)] := by
      rw [Text.hexWord, Nat.div_eq_of_lt (by omega), Nat.div_eq_of_lt (by omega), Nat.mod_eq_of_lt (a := c.toNat / 16) (by omega)]
      rfl
    have read := escape_unit c.toNat (by omega) tail
    rw [word, Char.ofNat_toNat] at read
    exact quoted_body_escape c _ tail read
  · rename_i quote backslash _ _ _ _ _ printed
    rw [List.singleton_append, quotedBody, if_neg quote, if_neg backslash, if_neg printed]

theorem quoted_body_escaped (content rest : List Char) :
    quotedBody (content.flatMap escapeChar ++ '"' :: rest) = .ok (content, rest) := by
  induction content with
  | nil => rw [List.flatMap_nil, List.nil_append, quotedBody, if_pos rfl]
  | cons c content ih =>
      rw [List.flatMap_cons, List.append_assoc, quoted_body_char, ih]
      rfl

end Json

namespace Toml

def escapeChar (c : Char) : List Char :=
  if c = '"' then ['\\', '"']
  else if c = '\\' then ['\\', '\\']
  else if Text.isControl c then '\\' :: 'u' :: Text.hexWord c.toNat
  else [c]

def quote (content : String) : List Char := '"' :: content.toList.flatMap escapeChar ++ ['"']

theorem basic_body_escape (plain : Char) (rest behind : List Char) (read : escape? rest = some (plain, behind)) :
    basicBody? ('\\' :: rest) =
      (basicBody? behind).map fun (content, behind) => (plain :: content, behind) := by
  rw [basicBody?, if_neg (by decide), if_pos rfl]
  split
  · rename_i failed
    rw [read] at failed
    cases failed
  · rename_i other left found
    rw [read] at found
    cases found
    rfl

theorem escape_word (c : Char) (small : c.toNat < 65536) (rest : List Char) :
    escape? ('u' :: (Text.hexWord c.toNat ++ rest)) = some (c, rest) := by
  have valid : c.toNat.isValidChar := c.valid
  simp only [escape?, Text.take_hex_word c.toNat small, Option.bind_some, Text.scalar?, if_pos valid, Char.ofNat_toNat,
    Option.map_some]

theorem basic_body_char (c : Char) (tail : List Char) :
    basicBody? (escapeChar c ++ tail) =
      (basicBody? tail).map fun (content, behind) => (c :: content, behind) := by
  unfold escapeChar
  split
  · subst c; exact basic_body_escape _ _ _ rfl
  split
  · subst c; exact basic_body_escape _ _ _ rfl
  split
  · rename_i control
    have small : c.toNat < 65536 := by
      simp [Text.isControl] at control
      omega
    exact basic_body_escape c _ tail (escape_word c small tail)
  · rename_i quote backslash printed
    have basic : isBasicChar c = true := by
      simp [Text.isControl] at printed
      simp [isBasicChar, isCommentChar, quote, backslash]
      omega
    rw [List.singleton_append, basicBody?, if_neg quote, if_neg backslash, if_pos basic]

theorem basic_body_escaped (content rest : List Char) :
    basicBody? (content.flatMap escapeChar ++ '"' :: rest) = some (content, rest) := by
  induction content with
  | nil => rw [List.flatMap_nil, List.nil_append, basicBody?, if_pos rfl]
  | cons c content ih =>
      rw [List.flatMap_cons, List.append_assoc, basic_body_char, ih]
      rfl

end Toml

end Showcase
