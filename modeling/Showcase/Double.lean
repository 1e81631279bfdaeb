namespace Showcase.Double

/-- The least magnitude that rounds to infinity: half a unit above the largest finite number. -/
def limit : Nat := 1 <<< 1024 - 1 <<< 970

def overflows (digits : Nat) (exponent : Int) : Bool :=
  let size : Int := (Nat.toDigits 10 digits).length + exponent
  -- 10 ^ (size - 1) ≤ value < 10 ^ size, so that powers are computed only near the limit
  if digits = 0 ∨ size < 308 then false
  else if 310 < size then true
  else if 0 ≤ exponent then limit ≤ digits * Nat.pow 10 exponent.toNat
  else limit * Nat.pow 10 (-exponent).toNat ≤ digits

/-- The nearest natural number with at most 53 significant bits, a tie going to the even one. -/
def round (n : Nat) : Nat :=
  let unit := 1 <<< (n.log2 - 52)
  let kept := n / unit
  let twice := 2 * (n % unit)
  let up := unit < twice ∨ (unit = twice ∧ kept % 2 = 1)
  (if up then kept + 1 else kept) * unit

end Showcase.Double
