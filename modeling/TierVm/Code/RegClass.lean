/-!
# Register classes

Every register, constant, argument and return slot belongs to one of four classes.  An operand
byte names a class by its two low bits; two more bits say that the operand is a constant or nil.
-/

namespace TierVm

/-- The four register files of a frame. -/
inductive RegClass where
  | int
  | float
  | string
  | pointer
  deriving DecidableEq, Repr, Inhabited

namespace RegClass

/-- The four classes in the order of their tags. -/
def all : List RegClass := [.int, .float, .string, .pointer]

/-- The two-bit tag of a class. -/
def tag : RegClass → UInt8
  | .int => 0
  | .float => 1
  | .string => 2
  | .pointer => 3

/-- The class that the two low bits of an operand byte name. -/
def ofTag (flags : UInt8) : RegClass :=
  if flags &&& 3 = 0 then .int
  else if flags &&& 3 = 1 then .float
  else if flags &&& 3 = 2 then .string
  else .pointer

@[simp] theorem ofTag_tag (c : RegClass) : ofTag c.tag = c := by
  cases c <;> decide

/-- The letter by which messages name a class. -/
def letter : RegClass → String
  | .int => "d"
  | .float => "f"
  | .string => "s"
  | .pointer => "a"

end RegClass

/-! ## Bits of an operand byte -/

/-- Operand bit: the operand is a constant, not a register. -/
def konstBit : UInt8 := 4

/-- Operand byte of an absent value. -/
def nilTag : UInt8 := 128

/-- Bit of the first operand of a return that ends the activation. -/
def finalBit : UInt8 := 128

/-- Whether all bits of `mask` are clear in `flags`. -/
def clearIn (mask flags : UInt8) : Bool := flags &&& mask == 0

end TierVm
