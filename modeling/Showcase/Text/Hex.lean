namespace Showcase.Text

def hexDigit? (c : Char) : Option Nat :=
  if '0' ≤ c ∧ c ≤ '9' then some (c.toNat - '0'.toNat)
  else if 'a' ≤ c ∧ c ≤ 'f' then some (c.toNat - 'a'.toNat + 10)
  else if 'A' ≤ c ∧ c ≤ 'F' then some (c.toNat - 'A'.toNat + 10)
  else none

def digitIn? (base : Nat) (c : Char) : Option Nat := (hexDigit? c).filter (· < base)

def number? (base : Nat) (digits : List Char) : Option Nat :=
  digits.foldlM (fun n c => (digitIn? base c).map (n * base + ·)) 0

def scalar? (n : Nat) : Option Char := if n.isValidChar then some (Char.ofNat n) else none

def takeHex? (count : Nat) (text : List Char) : Option (Nat × List Char) :=
  if text.length < count then none
  else (number? 16 (text.take count)).map fun n => (n, text.drop count)

theorem takeHex?_length {count : Nat} {text rest : List Char} {n : Nat}
    (taken : takeHex? count text = some (n, rest)) : rest.length + count = text.length := by
  unfold takeHex? at taken
  split at taken
  · simp at taken
  · rename_i enough
    obtain ⟨_, _, eq⟩ := Option.map_eq_some_iff.mp taken
    have same : text.drop count = rest := (Prod.mk.inj eq).2
    simp [← same]
    omega

end Showcase.Text
