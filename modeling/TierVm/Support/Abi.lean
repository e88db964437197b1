import TierVm.Code.Defect
import TierVm.Code.RegClass

/-!
# Binary interface of compiled code

Types and record layouts that compiled code and the rest of the machine agree on.
-/

namespace TierVm

/-- Types of machine values. -/
inductive NativeType where
  | i32
  | i64
  | f64
  deriving DecidableEq, Repr, Inhabited

/-- The name of a type. -/
def NativeType.name : NativeType → String
  | .i32 => "i32"
  | .i64 => "i64"
  | .f64 => "f64"

/-- Types of parameters and results. -/
structure Signature where
  params : List NativeType
  returns : List NativeType
  deriving DecidableEq, Repr

/-- Type of a register of a class; a string register holds the address of its frame slot. -/
def RegClass.nativeType : RegClass → NativeType
  | .int => .i32
  | .float => .f64
  | .string | .pointer => .i64

namespace Abi

/-- A compiled function takes arguments and their number, return slots and their number, and the
exception record, and returns the number of results. -/
def entry : Signature := ⟨[.i64, .i32, .i64, .i32, .i64], [.i32]⟩

/-- Offsets of reason, argument and instruction address in an exception record. -/
def exceptionOffsets : List Nat := [0, 4, 8]

/-- Offsets of bits and tag in a tagged word, and its size. -/
def valueLayout : List Nat := [0, 8, 16]

/-- Offsets of location and type in a return record, and its size. -/
def returnLayout : List Nat := [0, 8, 16]

/-- The scratch area of a call: offsets of return records and of value cells, its size and the
logarithm of its alignment. -/
def scratchLayout : List Nat := [0, maxReturns * 16, maxReturns * 16 + maxReturns * 8, 4]

end Abi

end TierVm
