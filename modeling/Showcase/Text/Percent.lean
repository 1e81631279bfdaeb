import Showcase.Text.Utf8

namespace Showcase.Text.Percent

def hexValue? (b : UInt8) : Option UInt8 :=
  if 0x30 ≤ b ∧ b ≤ 0x39 then some (b - 0x30)
  else if 0x41 ≤ b ∧ b ≤ 0x46 then some (b - 0x37)
  else if 0x61 ≤ b ∧ b ≤ 0x66 then some (b - 0x57)
  else none

def escaped? (mark high low : UInt8) : Option UInt8 :=
  if mark = 0x25 then
    match hexValue? high, hexValue? low with
    | some h, some l => some (h * 16 + l)
    | _, _ => none
  else none

def decodeBytes : Bytes → Bytes
  | mark :: high :: low :: tail =>
    match escaped? mark high low with
    | some b => b :: decodeBytes tail
    | none => mark :: decodeBytes (high :: low :: tail)
  | bytes => bytes

def decode? (segment : String) : Option String := ofUtf8? (decodeBytes (utf8 segment))

end Showcase.Text.Percent
