import TierVm.Code.Script
import TierVm.Decimal.Shortest
import TierVm.Machine.Abort

/-!
# Values

`Value` is a typed value as registers, arguments and return slots hold it.  `TaggedWord` is the
raw form of an argument: 64 bits and a tag that says how to read them.
-/

namespace TierVm

/-- A value of one of the four classes. -/
inductive Value where
  | int (x : Int32)
  | float (x : Float)
  | string (s : String)
  | pointer (p : Address)
  deriving Inhabited

namespace Value

/-- Class of a value. -/
def regClass : Value → RegClass
  | .int _ => .int
  | .float _ => .float
  | .string _ => .string
  | .pointer _ => .pointer

/-- The value of a fresh register or return slot. -/
def zero : RegClass → Value
  | .int => .int 0
  | .float => .float 0
  | .string => .string ""
  | .pointer => .pointer 0

@[simp] theorem regClass_zero (c : RegClass) : (zero c).regClass = c := by
  cases c <;> rfl

end Value

/-- The raw form of an argument. -/
structure TaggedWord where
  bits : UInt64
  tag : UInt8
  deriving DecidableEq, Repr

namespace TaggedWord

/-- The class that the tag names. -/
def regClass (w : TaggedWord) : RegClass := .ofTag w.tag

/-- The bits read as an integer: the low half. -/
def toInt (w : TaggedWord) : Int32 := w.bits.toUInt32.toInt32

/-- The bits read as a double. -/
def toFloat (w : TaggedWord) : Float := .ofBits w.bits

/-- An integer as a tagged word, sign-extended. -/
def ofInt (x : Int32) : TaggedWord := ⟨x.toInt64.toUInt64, RegClass.int.tag⟩

/-- A description of the value for diagnostics. -/
def describe (w : TaggedWord) : String :=
  match w.regClass with
  | .int => s!"Int({w.toInt.toInt})"
  | .float => s!"Float({Decimal.shortest w.toFloat})"
  | .string => s!"String({hexWord w.bits})"
  | .pointer => s!"Pointer({hexWord w.bits})"

end TaggedWord

end TierVm
