import TierVm.Machine.Layout
import TierVm.Machine.Value

/-!
# Frames

`Registers` are the four register files of an activation.  A call pushes a frame: fresh registers
into which the arguments are distributed, each into the next register of its class.  The stack of
frames is bounded and counts them; a push whose arguments do not fit is undone.
-/

namespace TierVm

/-- The register files of one activation. -/
structure Registers where
  ints : Array Int32
  floats : Array Float
  strings : Array String
  pointers : Array Address
  deriving Inhabited

namespace Registers

/-- Fresh registers. -/
def fresh (n : RegisterCounts) : Registers where
  ints := Array.replicate (n.of .int) 0
  floats := Array.replicate (n.of .float) 0
  strings := Array.replicate (n.of .string) ""
  pointers := Array.replicate (n.of .pointer) 0

/-- The value of a register. -/
def get? (r : Registers) (cls : RegClass) (i : Nat) : Option Value :=
  match cls with
  | .int => (r.ints[i]?).map .int
  | .float => (r.floats[i]?).map .float
  | .string => (r.strings[i]?).map .string
  | .pointer => (r.pointers[i]?).map .pointer

/-- Replace a register of the class of a value. -/
@[inline] def put? (r : Registers) (i : Nat) : Value → Option Registers
  | .int x => if i < r.ints.size then some { r with ints := r.ints.setIfInBounds i x } else none
  | .float x =>
    if i < r.floats.size then some { r with floats := r.floats.setIfInBounds i x } else none
  | .string x =>
    if i < r.strings.size then some { r with strings := r.strings.setIfInBounds i x } else none
  | .pointer x =>
    if i < r.pointers.size then some { r with pointers := r.pointers.setIfInBounds i x }
    else none

end Registers

/-! ## Frames -/

/-- One frame: its function, the sizes in its header, and its registers. -/
structure Frame where
  script : Script
  counts : RegisterCounts
  maxParam : UInt16
  /-- Parameters pushed for the next call. -/
  numParam : UInt16 := 0
  size : UInt32
  regs : Registers
  deriving Inhabited

/-- Next free register of each class while arguments are distributed. -/
structure Cursors where
  int : Nat := 0
  float : Nat := 0
  string : Nat := 0
  pointer : Nat := 0

namespace Cursors

/-- The next free register of a class. -/
def of (c : Cursors) : RegClass → Nat
  | .int => c.int
  | .float => c.float
  | .string => c.string
  | .pointer => c.pointer

/-- One register of a class was taken. -/
def advance (c : Cursors) : RegClass → Cursors
  | .int => { c with int := c.int + 1 }
  | .float => { c with float := c.float + 1 }
  | .string => { c with string := c.string + 1 }
  | .pointer => { c with pointer := c.pointer + 1 }

end Cursors

/-- Put arguments, the first of which has number `i`, into registers. -/
def distribute : List Value → Nat → Cursors → Registers → Except VmError Registers
  | [], _, _, regs => .ok regs
  | v :: rest, i, cursors, regs =>
    match regs.put? (cursors.of v.regClass) v with
    | some regs' => distribute rest (i + 1) (cursors.advance v.regClass) regs'
    | none =>
      .error (.malformed s!"argument {i} does not fit the {v.regClass.letter} registers")

/-- The frame of a new activation, with fresh registers. -/
def Frame.blank (s : Script) : Frame where
  script := s
  counts := s.regs
  maxParam := s.maxParam
  size := UInt32.ofNat (FrameLayout.ofScript s).size
  regs := .fresh s.regs

/-- Distribute arguments over the registers of a frame. -/
def Frame.fill (f : Frame) (args : List Value) : Except VmError Frame :=
  (distribute args 0 {} f.regs).map fun regs => { f with regs }

/-! ## The stack -/

/-- Most frames that can be nested. -/
def maxFrameDepth : Nat := 256

/-- The frames of nested activations, innermost first, and a counter of them. -/
structure FrameStack where
  frames : List Frame := []
  depth : Nat := 0
  deriving Inhabited

namespace FrameStack

/-- The innermost frame. -/
def top? (st : FrameStack) : Option Frame := st.frames.head?

/-- Make a frame the innermost one. -/
def link (st : FrameStack) (f : Frame) : FrameStack := ⟨f :: st.frames, st.depth + 1⟩

/-- Release the innermost frame. -/
def pop (st : FrameStack) : Except VmError FrameStack :=
  match st.frames with
  | [] => .error (.malformed "pop of an empty frame stack")
  | _ :: rest => .ok ⟨rest, st.depth - 1⟩

/-- Push the frame of a new activation.  The frame is linked before its arguments are distributed,
and released again if one does not fit. -/
def push (st : FrameStack) (s : Script) (args : List Value) : Except VmError Frame × FrameStack :=
  if maxFrameDepth ≤ st.depth then (.error (.stackOverflow st.depth), st)
  else
    match (Frame.blank s).fill args with
    | .ok frame => (.ok frame, st.link frame)
    | .error e =>
      match (st.link (.blank s)).pop with
      | .ok st' => (.error e, st')
      | .error e' => (.error e', st.link (.blank s))

end FrameStack

end TierVm
