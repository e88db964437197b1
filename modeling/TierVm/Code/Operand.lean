import TierVm.Code.Instr

/-!
# Operand encodings

Values that instructions keep in single operand bytes: conversions, the flags of a comparison, and
operands that name a register, a constant or nothing.
-/

namespace TierVm

/-- Conversions between register classes. -/
inductive Cast where
  | intToFloat
  | uintToFloat
  | floatToInt
  | floatToUint
  | intToString
  | uintToString
  | floatToString
  | stringToInt
  | stringToFloat
  deriving DecidableEq, Repr, Inhabited

namespace Cast

/-- The conversion that an operand byte names. -/
def ofByte? (b : UInt8) : Option Cast :=
  match b.toNat with
  | 0 => some .intToFloat
  | 1 => some .uintToFloat
  | 2 => some .floatToInt
  | 3 => some .floatToUint
  | 4 => some .intToString
  | 5 => some .uintToString
  | 6 => some .floatToString
  | 7 => some .stringToInt
  | 8 => some .stringToFloat
  | _ => none

/-- Class of the register that receives the result. -/
def target : Cast → RegClass
  | .intToFloat | .uintToFloat | .stringToFloat => .float
  | .floatToInt | .floatToUint | .stringToInt => .int
  | .intToString | .uintToString | .floatToString => .string

/-- Class of the register that is converted. -/
def source : Cast → RegClass
  | .intToFloat | .uintToFloat | .intToString | .uintToString => .int
  | .floatToInt | .floatToUint | .floatToString => .float
  | .stringToInt | .stringToFloat => .string

end Cast

/-! ## Flags of a comparison -/

/-- The outcome that lets execution go on with the next instruction. -/
def checkBit : UInt8 := 1

/-- The bits that choose how strings are compared. -/
def methodMask : UInt8 := 6

/-- Method bits of "less than". -/
def methodLt : UInt8 := 2

/-- Method bits of "less than or equal". -/
def methodLe : UInt8 := 4

/-- The left string is a constant. -/
def leftKonstBit : UInt8 := 8

/-- The right string is a constant. -/
def rightKonstBit : UInt8 := 16

/-- Compare approximately: floats within a tolerance, strings without regard to case. -/
def approxBit : UInt8 := 32

/-- Number of unary operations on doubles. -/
def flopCount : Nat := 24

/-! ## Tagged operands -/

/-- Where a parameter or a returned value comes from. -/
inductive Source where
  | nil
  | reg (cls : RegClass) (index : Nat)
  | konst (cls : RegClass) (index : Nat)
  deriving DecidableEq, Repr

/-- The source that a tag byte and an index name. -/
def Source.decode (flags : UInt8) (index : Nat) : Source :=
  if flags = nilTag then .nil
  else if clearIn konstBit flags then .reg (.ofTag flags) index
  else .konst (.ofTag flags) index

/-- Whether a tag byte has only bits with a meaning. -/
def Source.validTag (flags : UInt8) : Bool := flags == nilTag || clearIn 248 flags

/-- A string operand of a comparison: a constant or a register. -/
def Source.ofCompare (isKonst : Bool) (index : UInt8) : Source :=
  if isKonst then .konst .string index.toNat else .reg .string index.toNat

end TierVm
