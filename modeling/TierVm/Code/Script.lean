import TierVm.Code.Instr

/-!
# Script functions

A script function is immutable: instructions with their source lines, four constant pools, the
sizes of its register files and of its parameter area.  Function objects are numbered, and a
script knows the numbers of the functions among its pointer constants.  How much machine code it
takes is up to the code generator, and given with the script.
-/

namespace TierVm

/-- A 64-bit machine address; zero is the null pointer. -/
abbrev Address := UInt64

/-- Number of a function object in its program. -/
abbrev FunctionId := Nat

/-- Sizes of the four register files. -/
structure RegisterCounts where
  int : UInt16 := 0
  float : UInt16 := 0
  string : UInt16 := 0
  pointer : UInt16 := 0
  deriving DecidableEq, Repr, Inhabited

/-- Number of registers of a class. -/
def RegisterCounts.of (n : RegisterCounts) : RegClass → Nat
  | .int => n.int.toNat
  | .float => n.float.toNat
  | .string => n.string.toNat
  | .pointer => n.pointer.toNat

/-- The constants of a script, one pool for each class. -/
structure ConstantPool where
  ints : Array Int32 := #[]
  floats : Array Float := #[]
  strings : Array String := #[]
  pointers : Array Address := #[]
  deriving Inhabited

/-- Number of constants of a class. -/
def ConstantPool.sizeOf (k : ConstantPool) : RegClass → Nat
  | .int => k.ints.size
  | .float => k.floats.size
  | .string => k.strings.size
  | .pointer => k.pointers.size

/-- A script function. -/
structure Script where
  name : String
  code : Array Instr := #[]
  /-- Source line of each instruction. -/
  lines : Array UInt32 := #[]
  konst : ConstantPool := {}
  regs : RegisterCounts := {}
  /-- Size of the parameter area. -/
  maxParam : UInt16 := 0
  numArgs : UInt16 := 0
  /-- Functions among the pointer constants, in the order they were added. -/
  callees : Array FunctionId := #[]
  /-- Bytes of machine code that the code generator makes of the script.  The generator is not
  described here, so this is a parameter: it may be any number. -/
  codeSize : Nat := 1
  deriving Inhabited

namespace Script

/-- Source line of an instruction, zero when unknown. -/
def line (s : Script) (pc : Nat) : UInt32 := s.lines.getD pc 0

/-- Index of the instruction that holds the byte at `offset` from the start of the code. -/
def indexAt? (s : Script) (offset : Int) : Option Nat :=
  if 0 ≤ offset ∧ offset < 4 * (s.code.size : Int) then some (offset.toNat / 4) else none

end Script

end TierVm
