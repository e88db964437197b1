import TierVm.Code.Script

/-!
# Frame layout

A frame is one block: a header, the parameter area, then the float, string, pointer and integer
registers.  `FrameLayout.compute` gives the offset of each region from the sizes of the register
files and of the parameter area.
-/

namespace TierVm

/-- Bytes of a frame header. -/
def headerSize : Nat := 32

/-- Alignment of a frame and of its parameter area. -/
def frameAlign : Nat := 16

/-- Bytes of a parameter. -/
def paramSize : Nat := 16

/-- Bytes of a register. -/
def RegClass.slotSize : RegClass → Nat
  | .int => 4
  | .float => 8
  | .string => 24
  | .pointer => 8

/-- The least multiple of `align` that is not below `n`. -/
def alignUp (n align : Nat) : Nat := (n + align - 1) / align * align

/-- Offsets of the regions of a frame, and its size. -/
structure FrameLayout where
  params : Nat
  floatRegs : Nat
  stringRegs : Nat
  pointerRegs : Nat
  intRegs : Nat
  size : Nat
  deriving DecidableEq, Repr

namespace FrameLayout

/-- The layout of a frame with the given register files and parameter area. -/
def compute (regs : RegisterCounts) (maxParam : Nat) : FrameLayout :=
  let params := alignUp headerSize frameAlign
  let floatRegs := params + maxParam * paramSize
  let stringRegs := floatRegs + regs.of .float * RegClass.float.slotSize
  let pointerRegs := stringRegs + regs.of .string * RegClass.string.slotSize
  let intRegs := pointerRegs + regs.of .pointer * RegClass.pointer.slotSize
  let size := alignUp (intRegs + regs.of .int * RegClass.int.slotSize) frameAlign
  { params, floatRegs, stringRegs, pointerRegs, intRegs, size }

/-- The layout of the frames of a script. -/
def ofScript (s : Script) : FrameLayout := compute s.regs s.maxParam.toNat

/-- Where the registers of a class start. -/
def start (l : FrameLayout) : RegClass → Nat
  | .int => l.intRegs
  | .float => l.floatRegs
  | .string => l.stringRegs
  | .pointer => l.pointerRegs

/-- Offset of a register. -/
def register (l : FrameLayout) (cls : RegClass) (index : Nat) : Nat :=
  l.start cls + index * cls.slotSize

end FrameLayout

end TierVm
