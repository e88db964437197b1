/-!
# Exact values of doubles

The bits of a double decoded into a sign, a significand and a power of two, so that decimal text
can be computed in exact integer arithmetic.
-/

namespace TierVm.Decimal

/-- The value of a double. -/
inductive Exact where
  | nan
  | infinite (negative : Bool)
  /-- The value `significand * 2 ^ exponent`, with its sign. -/
  | finite (negative : Bool) (significand : Nat) (exponent : Int)
  deriving DecidableEq, Repr

/-- The leading bit of a significand, which the bits of a double leave out. -/
def leadingBit : Nat := 1 <<< 52

/-- A power of ten. -/
def pow10 (e : Nat) : Nat := Nat.pow 10 e

/-- Decode the bits of a double. -/
def Exact.ofBits (bits : UInt64) : Exact :=
  let n := bits.toNat
  let negative := n >>> 63 == 1
  let biased : Nat := (n >>> 52) % 2048
  let fraction : Nat := n % leadingBit
  if biased = 2047 then (if fraction = 0 then .infinite negative else .nan)
  else if biased = 0 then .finite negative fraction (-1074)
  else .finite negative (fraction + leadingBit) ((biased : Int) - 1075)

/-- The exact value of a double. -/
def Exact.of (x : Float) : Exact := .ofBits x.toBits

/-- `num / den` rounded to the nearest integer, ties to the even neighbour. -/
def divRound (num den : Nat) : Nat :=
  let q := num / den
  let r := num % den
  if 2 * r < den then q
  else if den < 2 * r then q + 1
  else q + q % 2

/-- Text of the values that have no digits. -/
def signed (negative : Bool) (text : String) : String := if negative then "-" ++ text else text

end TierVm.Decimal
