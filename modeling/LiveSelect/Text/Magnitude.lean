/-! # The range of binary floating point

A number that is written with a fraction or an exponent has to lie in the range of 64-bit
binary floating point, whatever becomes of it later. -/

namespace LiveSelect.Text

/-- The least number that is too large for 64 bits of binary floating point. -/
def overflow : Nat := Nat.pow 2 1024 - Nat.pow 2 970

/-- Whether `m · 10^e` is too large for 64 bits of binary floating point. -/
def overflows (m : Nat) (e : Int) : Bool :=
  let size := (Nat.repr m).length + e
  if m = 0 || size < 300 then false
  else if 320 < size then true
  else overflow * Nat.pow 10 (-e).toNat ≤ m * Nat.pow 10 e.toNat

example : overflows 17976931348623157 292 = false := by decide +kernel
example : overflows 17976931348623159 292 = true := by decide +kernel

end LiveSelect.Text
