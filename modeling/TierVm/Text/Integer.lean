import TierVm.Text.Blank

/-!
# Integers as text

Decimal text of machine integers, and the reading of it: an optional sign and digits, refused when
there is no digit or the value leaves the range.
-/

namespace TierVm.Text

/-- Decimal digits of a natural number. -/
def digits (n : Nat) : List Char := Nat.toDigits 10 n

/-- Decimal text of an integer. -/
def intText (x : Int) : List Char :=
  if x < 0 then '-' :: digits x.natAbs else digits x.natAbs

/-- The value of a decimal digit. -/
def digitValue (c : Char) : Nat := c.toNat - 48

/-- The value of digits read after the value `acc`. -/
def readDigits (acc : Nat) (cs : List Char) : Nat :=
  cs.foldl (fun n c => 10 * n + digitValue c) acc

/-- The value of digits read after the value `acc`, refused as soon as it exceeds a limit. -/
def readUpTo (limit : Nat) : Nat → List Char → Option Nat
  | acc, [] => some acc
  | acc, c :: rest =>
    if c.isDigit then
      let n := 10 * acc + digitValue c
      if limit < n then none else readUpTo limit n rest
    else none

/-- The sign in front of a number, negative or not, and the text behind it. -/
def splitSign : List Char → Bool × List Char
  | '-' :: rest => (true, rest)
  | '+' :: rest => (false, rest)
  | cs => (false, cs)

/-- The 32-bit integer that a text stands for, if it is in range. -/
def readInt32? (cs : List Char) : Option Int32 :=
  let (negative, rest) := splitSign cs
  if rest.isEmpty then none
  else
    (readUpTo (if negative then 2147483648 else 2147483647) 0 rest).map fun n =>
      Int32.ofInt (if negative then -(n : Int) else n)

end TierVm.Text
