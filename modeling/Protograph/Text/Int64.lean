/-! # Integers of 64 bits — which numbers are among them -/

namespace Protograph

/-- The magnitude of the least integer of 64 bits. -/
def int64Bound : Nat := 9223372036854775808

/-- An integer of this sign and magnitude has 64 bits. -/
def fitsInt64 (negative : Bool) (magnitude : Nat) : Bool :=
  if negative then magnitude ≤ int64Bound else magnitude < int64Bound

/-- The number that decimal digits stand for. -/
def decimalNumber (digits : List Char) : Nat :=
  digits.foldl (fun n c => 10 * n + (c.toNat - '0'.toNat)) 0

end Protograph
