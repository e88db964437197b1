import TierVm.Code.Operand
import TierVm.Machine.Bytes
import TierVm.Machine.Frame
import TierVm.Machine.Memory
import TierVm.Machine.ReturnSlots

/-!
# Activations

An `Activation` is everything that one instruction of a running function can touch: its position,
registers and pending parameters, the return slots of its caller, and the memory.

An instruction only looks at the activation and comes out as an `Effect`, or as a trap; an
instruction that aborts thus changes nothing.  `Activation.perform` carries an effect out.
-/

namespace TierVm

/-- A pending parameter.  A string register is passed by reference, so what counts is its contents
at the call. -/
inductive Param where
  | value (v : Value)
  | stringRegister (index : Nat)
  deriving Inhabited

/-- The register that receives a result of a call. -/
structure Target where
  cls : RegClass
  index : Nat
  deriving DecidableEq, Repr

/-- Where the results of a call that are no strings are written: straight into their registers, or
into scratch cells that are copied into the registers afterwards, in order.  Strings are always
written straight into their registers. -/
inductive ResultCells where
  | registers
  | scratch
  deriving DecidableEq, Repr

/-- Whether a result is written straight into its register. -/
def ResultCells.inPlace (cells : ResultCells) (t : Target) : Bool :=
  cells = .registers || t.cls = .string

/-- What an instruction does. -/
inductive Effect where
  /-- Put a value into a register and go on. -/
  | put (index : Nat) (v : Value)
  /-- Write bytes into memory and go on. -/
  | store (address : Address) (bytes : List UInt8)
  /-- Add an object to the memory, put its address into a register and go on. -/
  | alloc (index size : Nat)
  /-- Put a parameter into a slot of the parameter area and go on. -/
  | param (slot : Nat) (p : Param)
  /-- Leave a value, if there is one, in a slot of the caller; then leave if it is the last. -/
  | give (slot : Nat) (v : Option Value) (last : Bool)
  /-- Go on elsewhere; `backward` tells a jump to this or an earlier instruction. -/
  | goto (pc : Nat) (backward : Bool)
  /-- Call a function with the `count` parameters from slot `first` on, put its results into the
  targets and go on behind them. -/
  | call (callee : Address) (first count : Nat) (targets : List Target) (cells : ResultCells)
  /-- End the activation without a result. -/
  | leave

/-- The state of a running function. -/
structure Activation where
  pc : Nat
  regs : Registers
  /-- The parameter area. -/
  params : Array Param
  /-- How many parameters are pending. -/
  numParam : Nat
  slots : ReturnSlots
  memory : Memory
  deriving Inhabited

/-- What follows an effect. -/
inductive Step where
  /-- Go on; `backward` tells a backward jump. -/
  | next (act : Activation) (backward : Bool)
  /-- Call the function at an address.  The activation stands at the call. -/
  | call (act : Activation) (callee : Address) (args : List Argument) (slots : ReturnSlots)
      (targets : List Target)
  /-- End the activation. -/
  | leave (act : Activation) (count : Nat)

/-- An index must be in range. -/
@[inline] def inRange {α : Type} : Option α → Except Trap α
  | some x => .ok x
  | none => .error (.stop .badIndex)

/-- Abort for a reason. -/
def abortWith {α : Type} (reason : Reason) (arg : Int32) : Except Trap α :=
  .error (.abort { reason, arg })

/-- The value of a constant. -/
def ConstantPool.get? (k : ConstantPool) (cls : RegClass) (i : Nat) : Option Value :=
  match cls with
  | .int => (k.ints[i]?).map .int
  | .float => (k.floats[i]?).map .float
  | .string => (k.strings[i]?).map .string
  | .pointer => (k.pointers[i]?).map .pointer

/-! ## Addresses -/

/-- The address at a signed distance from another. -/
def displace (base : Address) (offset : Int32) : Address := base + offset.toInt64.toUInt64

/-- Move a pointer by a signed distance; the null pointer stays. -/
def movePointer (base : Address) (offset : Int32) : Address :=
  if base = 0 then base else displace base offset

/-- The distance between two addresses, cut to 32 bits. -/
def pointerDistance (l r : Address) : Int32 := (l - r).toUInt32.toInt32

namespace Activation

/-- Start of an activation in a fresh frame. -/
def start (frame : Frame) (slots : ReturnSlots) (memory : Memory) : Activation where
  pc := 0
  regs := frame.regs
  params := Array.replicate frame.maxParam.toNat (.value (.int 0))
  numParam := 0
  slots := slots
  memory := memory

/-! ## What instructions look at -/

/-- Read an integer register. -/
@[inline] def int (act : Activation) (i : Nat) : Except Trap Int32 := inRange act.regs.ints[i]?

/-- Read a float register. -/
@[inline] def float (act : Activation) (i : Nat) : Except Trap Float := inRange act.regs.floats[i]?

/-- Read a string register. -/
@[inline] def string (act : Activation) (i : Nat) : Except Trap String :=
  inRange act.regs.strings[i]?

/-- Read a pointer register. -/
@[inline] def pointer (act : Activation) (i : Nat) : Except Trap Address :=
  inRange act.regs.pointers[i]?

/-- Read a register of any class. -/
@[inline] def value (act : Activation) (cls : RegClass) (i : Nat) : Except Trap Value :=
  inRange (act.regs.get? cls i)

/-- Go on with the next instruction. -/
@[inline] def onward (act : Activation) : Effect := .goto (act.pc + 1) false

/-- Load a value into a register. -/
def load (act : Activation) (w : Width) (index : Nat) (base : Address) (offset : Int32) :
    Except Trap Effect :=
  if base = 0 then abortWith .readNil 0
  else
    match act.memory.read? (displace base offset) w.size with
    | some bytes => .ok (.put index (w.decode bytes))
    | none => .error (.stop .badAccess)

/-- Store a value. -/
@[inline] def store (w : Width) (base : Address) (offset : Int32) (v : Value) :
    Except Trap Effect :=
  if base = 0 then abortWith .writeNil 0 else .ok (.store (displace base offset) (w.encode v))

/-- Allocate an object and put its address into a register. -/
@[inline] def alloc (index : Nat) (size : Int32) : Except Trap Effect :=
  match Memory.objectSize? size with
  | some bytes => .ok (.alloc index bytes)
  | none => abortWith .arrayTooLarge size

/-- Check an index against a limit, both unsigned. -/
@[inline] def checkBound (act : Activation) (index limit : Int32) : Except Trap Effect :=
  if limit.toUInt32 ≤ index.toUInt32 then abortWith .arrayOutOfBounds index else .ok act.onward

/-- Return a value in a slot that the caller asked for, which must be of its class. -/
def give (act : Activation) (slot : Nat) (v : Value) (last : Bool) : Except Trap Effect :=
  if act.slots.class? slot = some v.regClass then .ok (.give slot (some v) last)
  else abortWith .other 0

/-! ## Calls -/

/-- The argument that a parameter stands for when the call has the given targets. -/
def argument (act : Activation) (targets : List Target) : Param → Option Argument
  | .value v => some { value := v }
  | .stringRegister r =>
    (act.regs.strings[r]?).map fun s =>
      { value := .string s, cell := targets.findIdx? (· = ⟨.string, r⟩) }

/-- The arguments in the parameter slots `first`, …, `first + count - 1`. -/
def arguments (act : Activation) (targets : List Target) (first count : Nat) :
    Option (List Argument) :=
  (List.range count).mapM fun i => (act.params[first + i]?).bind (act.argument targets)

/-- The cell of each slot of a call.  Slots of a target that is written in place lead to the cell
of its first mention; any other slot has a cell of its own. -/
def slotCells (targets : List Target) (cells : ResultCells) : List Nat :=
  targets.zipIdx.map fun (t, i) => if cells.inPlace t then targets.findIdx (· = t) else i

/-- The return slots of a call: cells that hold the targets' old values. -/
def callSlots (act : Activation) (targets : List Target) (cells : ResultCells) :
    Option ReturnSlots := do
  let old ← targets.mapM fun t => act.regs.get? t.cls t.index
  ReturnSlots.link? old (slotCells targets cells)

/-- Put the results of a call into their targets, in order. -/
def receive (slots : ReturnSlots) : List (Target × Nat) → Registers → Registers
  | [], regs => regs
  | (t, i) :: rest, regs =>
    match (slots.get? i).bind (regs.put? t.index) with
    | some regs' => receive slots rest regs'
    | none => receive slots rest regs

/-! ## Effects -/

/-- Go on with the next instruction. -/
@[inline] def advance (act : Activation) : Step := .next { act with pc := act.pc + 1 } false

/-- Carry out an effect. -/
@[inline] def perform (act : Activation) : Effect → Except Stop Step
  | .put index v =>
    match act.regs.put? index v with
    | some regs => .ok { act with regs }.advance
    | none => .error .badIndex
  | .store address bytes =>
    match act.memory.write? address bytes with
    | some memory => .ok { act with memory }.advance
    | none => .error .badAccess
  | .alloc index size =>
    match act.memory.place size with
    | .error s => .error s
    | .ok (p, memory) =>
      match act.regs.put? index (.pointer p) with
      | some regs => .ok { act with regs, memory }.advance
      | none => .error .badIndex
  | .param slot p =>
    if slot < act.params.size then
      .ok { act with params := act.params.setIfInBounds slot p, numParam := slot + 1 }.advance
    else .error .badIndex
  | .give slot v last =>
    let slots := v.elim act.slots (act.slots.set slot)
    let act := { act with slots }
    .ok (if last then .leave act (min (slot + 1) act.slots.size) else act.advance)
  | .goto pc backward => .ok (.next { act with pc } backward)
  | .call callee first count targets cells =>
    match act.callSlots targets cells, act.arguments targets first count with
    | some slots, some args => .ok (.call { act with numParam := first } callee args slots targets)
    | _, _ => .error .badIndex
  | .leave => .ok (.leave act 0)

end Activation

end TierVm
