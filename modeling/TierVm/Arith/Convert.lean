import TierVm.Code.Operand
import TierVm.Decimal.Fixed
import TierVm.Decimal.Read
import TierVm.Text.Lowercase

/-!
# Conversions and comparison of strings

Doubles convert to integers by truncation, saturating at the ends of the range, with zero for
not-a-number.  Text that is no number converts to zero.
-/

namespace TierVm

/-- The signed integer nearest to a double towards zero. -/
def floatToInt (x : Float) : Int32 := x.toInt32

/-- The unsigned integer nearest to a double towards zero, as a machine word. -/
def floatToUint (x : Float) : Int32 := x.toUInt32.toInt32

/-- Decimal text of a signed integer. -/
def intToString (x : Int32) : String := String.ofList (Text.intText x.toInt)

/-- Decimal text of a machine word read as unsigned. -/
def uintToString (x : Int32) : String := String.ofList (Text.digits x.toUInt32.toNat)

/-- Text of a double with five places. -/
def floatToString (x : Float) : String := Decimal.fixed 5 x

/-- The integer that a text stands for: a decimal integer in range, or else a number that is
converted like a double. -/
def stringToInt (s : String) : Int32 :=
  let cs := Text.trim s.toList
  match Text.readInt32? cs with
  | some x => x
  | none =>
    match Decimal.read? cs with
    | some x => floatToInt x
    | none => 0

/-- The double that a text stands for. -/
def stringToFloat (s : String) : Float := (Decimal.read? (Text.trim s.toList)).getD 0

/-- Length of a string in bytes, as a machine word. -/
def stringLength (s : String) : Int32 := Int32.ofNat s.utf8ByteSize

/-- Compare two strings by the method in `flags`.  Strings are ordered by code points; an
approximate comparison is one of their lowercase forms. -/
def compareStrings (flags : UInt8) (l r : String) : Bool :=
  let (l, r) := if clearIn approxBit flags then (l, r) else (Text.lower l, Text.lower r)
  let method := flags &&& methodMask
  if method = methodLt then decide (l < r)
  else if method = methodLe then decide (¬ r < l)
  else l == r

end TierVm
