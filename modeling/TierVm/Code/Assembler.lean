import TierVm.Code.Defect
import TierVm.Code.Script

/-!
# Assembler

A script function is assembled by a list of directives: constants, instructions, labels and jumps
to labels that may be bound later.  `Assembler.finish` resolves the jumps.  A label may be bound
more than once; the last binding counts.
-/

namespace TierVm

/-- A script function under construction. -/
structure Assembler where
  script : Script
  /-- Source line given to the next instructions. -/
  line : UInt32 := 0
  /-- Where each label is bound, if it is. -/
  labels : Array (Option Nat) := #[]
  /-- Jumps to resolve, with the label each one names, in the order they were emitted. -/
  fixups : Array (Nat × Nat) := #[]

/-- One step of an assembly. -/
inductive Directive where
  | registers (counts : RegisterCounts)
  | maxParam (count : UInt16)
  | numArgs (count : UInt16)
  | line (number : UInt32)
  | konstInt (value : Int32)
  | konstFloat (value : Float)
  | konstString (value : String)
  | konstPointer (value : Address)
  /-- A function object and the address it has. -/
  | konstFunction (id : FunctionId) (address : Address)
  /-- Ask for the index of the next instruction. -/
  | here
  /-- Append an instruction and further ones that belong to it. -/
  | emit (first : Instr) (rest : List Instr)
  | newLabel
  | bind (label : Nat)
  | jump (label : Nat)

namespace Assembler

/-- An empty script of the given name. -/
def start (name : String) : Assembler := { script := { name } }

/-- Append one instruction under the current source line. -/
def push (asm : Assembler) (i : Instr) : Assembler :=
  { asm with
    script := { asm.script with
      code := asm.script.code.push i
      lines := asm.script.lines.push asm.line } }

/-- Index of the next instruction. -/
def pc (asm : Assembler) : Nat := asm.script.code.size

/-- Replace the constant pools. -/
def withKonst (asm : Assembler) (f : ConstantPool → ConstantPool) : Assembler :=
  { asm with script := { asm.script with konst := f asm.script.konst } }

/-- Add a pointer constant. -/
def addPointer (asm : Assembler) (p : Address) : Assembler :=
  asm.withKonst fun k => { k with pointers := k.pointers.push p }

/-- Note that a function object is among the pointer constants. -/
def addCallee (asm : Assembler) (id : FunctionId) : Assembler :=
  { asm with script := { asm.script with callees := asm.script.callees.push id } }

/-- Note that the instruction at `pc` jumps to a label. -/
def addFixup (asm : Assembler) (pc label : Nat) : Assembler :=
  { asm with fixups := asm.fixups.push (pc, label) }

/-- Perform one directive. -/
def perform (asm : Assembler) : Directive → Assembler
  | .registers counts => { asm with script := { asm.script with regs := counts } }
  | .maxParam count => { asm with script := { asm.script with maxParam := count } }
  | .numArgs count => { asm with script := { asm.script with numArgs := count } }
  | .line number => { asm with line := number }
  | .konstInt v => asm.withKonst fun k => { k with ints := k.ints.push v }
  | .konstFloat v => asm.withKonst fun k => { k with floats := k.floats.push v }
  | .konstString v => asm.withKonst fun k => { k with strings := k.strings.push v }
  | .konstPointer v => asm.addPointer v
  | .konstFunction id address => (asm.addPointer address).addCallee id
  | .here => asm
  | .emit first rest => rest.foldl push (asm.push first)
  | .newLabel => { asm with labels := asm.labels.push none }
  | .bind label => { asm with labels := asm.labels.setIfInBounds label (some asm.pc) }
  | .jump label => (asm.addFixup asm.pc label).push (.withAbc Opcode.jmp.byte 0)

/-- The number that a new constant gets: 16 bits of its position in the pool. -/
def konstIndex (size : Nat) : Nat := size % 65536

/-- What a directive gives back before it is performed: the index of an instruction that it emits,
of a constant or of a label.  Directives that only set something give nothing. -/
def answer? (asm : Assembler) : Directive → Option Nat
  | .registers _ | .maxParam _ | .numArgs _ | .line _ | .bind _ => none
  | .konstInt _ => some (konstIndex asm.script.konst.ints.size)
  | .konstFloat _ => some (konstIndex asm.script.konst.floats.size)
  | .konstString _ => some (konstIndex asm.script.konst.strings.size)
  | .konstPointer _ | .konstFunction .. => some (konstIndex asm.script.konst.pointers.size)
  | .here | .emit .. | .jump _ => some asm.pc
  | .newLabel => some asm.labels.size

/-- Perform directives in order. -/
def run (asm : Assembler) (ds : List Directive) : Assembler := ds.foldl perform asm

/-- The instruction that jumps from index `pc` to index `target`. -/
def jumpTo (pc target : Nat) : Instr :=
  .withAbc Opcode.jmp.byte (Int32.ofNat target - (Int32.ofNat pc + 1))

/-- Resolve the jumps in the order they were emitted. -/
def resolve (labels : Array (Option Nat)) :
    List (Nat × Nat) → Array Instr → Except Defect (Array Instr)
  | [], code => .ok code
  | (pc, label) :: rest, code =>
    match labels[label]? with
    | some (some target) => resolve labels rest (code.setIfInBounds pc (jumpTo pc target))
    | _ => .error (.unboundLabel label)

/-- The finished script, or the first jump's label that was never bound. -/
def finish (asm : Assembler) : Except Defect Script :=
  match resolve asm.labels asm.fixups.toList asm.script.code with
  | .ok code => .ok { asm.script with code }
  | .error d => .error d

end Assembler

/-! ## Directives for single instructions -/

namespace Directive

/-- Append one instruction. -/
def one (i : Instr) : Directive := .emit i []

/-- Load an immediate into an integer register. -/
def loadImm (reg : UInt8) (value : Int16) : Directive :=
  .one (.withBc Opcode.li.byte reg value.toUInt16)

/-- First operand of a return: the slot, and whether the return ends the activation. -/
def retFlags (slot : UInt8) (last : Bool) : UInt8 := if last then slot ||| finalBit else slot

/-- Return a register. -/
def retReg (slot : UInt8) (cls : RegClass) (reg : UInt8) (last : Bool) : Directive :=
  .one (.make .ret (retFlags slot last) cls.tag reg)

/-- Return a constant. -/
def retKonst (slot : UInt8) (cls : RegClass) (konst : UInt8) (last : Bool) : Directive :=
  .one (.make .ret (retFlags slot last) (cls.tag ||| konstBit) konst)

/-- Return an immediate. -/
def retImm (slot : UInt8) (value : Int16) (last : Bool) : Directive :=
  .one (.withBc Opcode.reti.byte (retFlags slot last) value.toUInt16)

/-- Return without a value. -/
def retNil : Directive := .one (.make .ret finalBit nilTag 0)

/-- Pass a register. -/
def paramReg (cls : RegClass) (reg : UInt8) : Directive :=
  .one (.withBc Opcode.param.byte cls.tag reg.toUInt16)

/-- Pass a constant. -/
def paramKonst (cls : RegClass) (konst : UInt16) : Directive :=
  .one (.withBc Opcode.param.byte (cls.tag ||| konstBit) konst)

/-- Pass the null pointer. -/
def paramNil : Directive := .one (.withBc Opcode.param.byte nilTag 0)

/-- Pass an immediate. -/
def paramImm (value : Int32) : Directive := .one (.withAbc Opcode.parami.byte value)

/-- The instruction that names the register of one result. -/
def resultInto (target : RegClass × UInt8) : Instr := .make .result 0 target.1.tag target.2

/-- Call through a pointer register. -/
def call (reg params : UInt8) (results : List (RegClass × UInt8)) : Directive :=
  .emit (.make .call reg params (UInt8.ofNat results.length)) (results.map resultInto)

/-- Call a pointer constant. -/
def callKonst (konst params : UInt8) (results : List (RegClass × UInt8)) : Directive :=
  .emit (.make .callK konst params (UInt8.ofNat results.length)) (results.map resultInto)

end Directive

end TierVm
