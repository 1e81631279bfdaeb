import Showcase.Json.Basic
import Showcase.Text.Hex

namespace Showcase.Json

def escapeOf? : Char → Option Char
  | '"' => some '"'
  | '\\' => some '\\'
  | '/' => some '/'
  | 'b' => some '\x08'
  | 'f' => some '\x0c'
  | 'n' => some '\n'
  | 'r' => some '\r'
  | 't' => some '\t'
  | _ => none

def byteSize (text : List Char) : Nat := text.foldl (fun size c => size + c.utf8Size) 0

/-- Four hexadecimal digits. A text that ends within the next four bytes is truncated. -/
def codeUnit (text : List Char) : Except Fault (Nat × List Char) :=
  match Text.takeHex? 4 text with
  | some read => .ok read
  | none => if byteSize (text.take 4) < 4 then .error .truncated else .error .malformed

def isLead (unit : Nat) : Bool := 0xD800 ≤ unit && unit ≤ 0xDBFF

def isTrail (unit : Nat) : Bool := 0xDC00 ≤ unit && unit ≤ 0xDFFF

def joinUnits (lead trail : Nat) : Char :=
  Char.ofNat (0x10000 + (lead - 0xD800) * 0x400 + (trail - 0xDC00))

def codePoint (text : List Char) : Except Fault (Char × List Char) := do
  let (unit, rest) ← codeUnit text
  if isTrail unit then throw .malformed
  else if isLead unit then
    let rest ← expect '\\' rest
    let rest ← expect 'u' rest
    let (trail, rest) ← codeUnit rest
    if isTrail trail then return (joinUnits unit trail, rest) else throw .malformed
  else return (Char.ofNat unit, rest)

def escape : List Char → Except Fault (Char × List Char)
  | [] => .error .truncated
  | c :: rest =>
    if c = 'u' then codePoint rest
    else match escapeOf? c with
      | some plain => .ok (plain, rest)
      | none => .error .malformed

theorem codeUnit_length {text rest : List Char} {unit : Nat} (read : codeUnit text = .ok (unit, rest)) :
    rest.length ≤ text.length := by
  unfold codeUnit at read
  split at read
  · rename_i found
    rw [Except.ok.injEq] at read
    subst read
    have := Text.takeHex?_length found
    omega
  · split at read <;> simp at read

theorem codePoint_length {text rest : List Char} {c : Char} (read : codePoint text = .ok (c, rest)) :
    rest.length ≤ text.length := by
  unfold codePoint at read
  cases first : codeUnit text with
  | error fault => simp [first, bind, Except.bind] at read
  | ok found =>
    obtain ⟨unit, behind⟩ := found
    have unitLength := codeUnit_length first
    simp only [first, bind, Except.bind] at read
    split at read
    · simp [throw, throwThe, MonadExceptOf.throw] at read
    split at read
    · cases second : expect '\\' behind with
      | error fault => simp [second] at read
      | ok behind₂ =>
        have slashLength := expect_length second
        simp only [second] at read
        cases third : expect 'u' behind₂ with
        | error fault => simp [third] at read
        | ok behind₃ =>
          have markLength := expect_length third
          simp only [third] at read
          cases fourth : codeUnit behind₃ with
          | error fault => simp [fourth] at read
          | ok found =>
            obtain ⟨trail, behind₄⟩ := found
            have trailLength := codeUnit_length fourth
            simp only [fourth] at read
            split at read
            · simp only [pure, Except.pure, Except.ok.injEq, Prod.mk.injEq] at read
              rw [← read.2]
              omega
            · simp [throw, throwThe, MonadExceptOf.throw] at read
    · simp only [pure, Except.pure, Except.ok.injEq, Prod.mk.injEq] at read
      rw [← read.2]
      exact unitLength

theorem escape_length {text rest : List Char} {c : Char} (read : escape text = .ok (c, rest)) :
    rest.length < text.length := by
  cases text with
  | nil => simp [escape] at read
  | cons d tail =>
    unfold escape at read
    simp only at read
    split at read
    · have := codePoint_length read
      simp only [List.length_cons]
      omega
    · split at read
      · simp only [Except.ok.injEq, Prod.mk.injEq] at read
        simp [← read.2]
      · simp at read

def quotedBody (text : List Char) : Except Fault (List Char × List Char) :=
  match text with
  | [] => .error .truncated
  | c :: rest =>
    if c = '"' then .ok ([], rest)
    else if c = '\\' then
      match read : escape rest with
      | .error fault => .error fault
      | .ok (plain, behind) =>
        have : behind.length < rest.length := escape_length read
        (quotedBody behind).map fun (content, behind) => (plain :: content, behind)
    else if c.toNat < 0x20 then .error .malformed
    else (quotedBody rest).map fun (content, behind) => (c :: content, behind)
termination_by text.length

/-- An escape of a text that nobody reads: halves of a pair may stand alone in it. -/
def skipEscape : List Char → Except Fault (List Char)
  | [] => .error .truncated
  | c :: rest =>
    if c = 'u' then (codeUnit rest).map Prod.snd
    else if (escapeOf? c).isSome then .ok rest
    else .error .malformed

theorem skipEscape_length {text rest : List Char} (read : skipEscape text = .ok rest) :
    rest.length < text.length := by
  cases text with
  | nil => simp [skipEscape] at read
  | cons d tail =>
    unfold skipEscape at read
    simp only at read
    split at read
    · cases unit : codeUnit tail with
      | error fault => simp [unit, Except.map] at read
      | ok found =>
        obtain ⟨n, behind⟩ := found
        have := codeUnit_length unit
        simp only [unit, Except.map, Except.ok.injEq] at read
        simp only [← read, List.length_cons]
        omega
    · split at read
      · simp only [Except.ok.injEq] at read
        simp [← read]
      · simp at read

def skipQuoted (text : List Char) : Except Fault (List Char) :=
  match text with
  | [] => .error .truncated
  | c :: rest =>
    if c = '"' then .ok rest
    else if c = '\\' then
      match read : skipEscape rest with
      | .error fault => .error fault
      | .ok behind =>
        have : behind.length < rest.length := skipEscape_length read
        skipQuoted behind
    else if c.toNat < 0x20 then .error .malformed
    else skipQuoted rest
termination_by text.length

end Showcase.Json
