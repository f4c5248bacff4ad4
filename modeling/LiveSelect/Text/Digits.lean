/-! # Digits

The numbers that digits stand for, in bases up to sixteen. -/

namespace LiveSelect.Text

/-- The number that digits stand for in a base; characters that are no digits count as zero. -/
def digitsValue (base : Nat) (ds : List Char) : Nat :=
  ds.foldl (fun n c => n * base + (if c.isDigit then c.toNat - 48 else (c.toLower.toNat - 87))) 0

/-- Whether a character is a hexadecimal digit. -/
def isHexDigit (c : Char) : Bool :=
  c.isDigit || ('a' ≤ c && c ≤ 'f') || ('A' ≤ c && c ≤ 'F')

end LiveSelect.Text
