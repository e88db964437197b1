import TierVm.Code.Verify
import TierVm.Exec.Lowered
import TierVm.Tier.CompileError

/-!
# Lowering

`lowerCode` turns the instructions of a script into lowered operations in one pass.  It counts the
pending parameters in instruction order, so that every parameter and every call gets fixed slots.
`compile` verifies a script before it lowers it.
-/

namespace TierVm.Lowering

open TierVm.Lowered

/-! ## Operands -/

/-- Code generation breaks down on an index that is out of range. -/
def outOfRange {α : Type} (s : Script) (size index : Nat) : Except CompileError α :=
  .error (.codegen
    s!"panic while compiling {s.name}: native code panicked: index out of bounds: the len is {size} but the index is {index}")

/-- A register that exists. -/
def useReg (s : Script) (cls : RegClass) (i : Nat) : Except CompileError Nat :=
  if i < s.regs.of cls then .ok i else outOfRange s (s.regs.of cls) i

/-- An element of an array that exists. -/
def useAt {α : Type} (s : Script) (xs : Array α) (i : Nat) : Except CompileError α :=
  match xs[i]? with
  | some x => .ok x
  | none => outOfRange s xs.size i

/-- A register operand. -/
def regArg {α : Type} (s : Script) (cls : RegClass) (i : Nat) : Except CompileError (Arg α) :=
  (useReg s cls i).map .reg

/-- A constant operand. -/
def immArg {α : Type} (s : Script) (pool : Array α) (i : Nat) : Except CompileError (Arg α) :=
  (useAt s pool i).map .imm

/-- The two operands of a binary operation; `pool` is the constant pool of its class. -/
def binary {α : Type} (s : Script) (cls : RegClass) (pool : Array α) (i : Instr) (form : Form)
    (immediate : Option α) : Except CompileError (Arg α × Arg α) :=
  let b := i.b.toNat
  let c := i.c.toNat
  match form, immediate with
  | .rk, _ => do return (← regArg s cls b, ← immArg s pool c)
  | .kr, _ => do return (← immArg s pool b, ← regArg s cls c)
  | .ri, some x => do return (← regArg s cls b, .imm x)
  | _, _ => do return (← regArg s cls b, ← regArg s cls c)

/-- The byte offset of a memory access. -/
def offsetArg (s : Script) (i : Instr) : Offset → Except CompileError (Arg Int32)
  | .register => regArg s .int i.c.toNat
  | .konst => immArg s s.konst.ints i.c.toNat

/-- A tagged operand; an absent one is the null pointer. -/
def operand (s : Script) : Source → Except CompileError Operand
  | .nil => .ok (.pointer (.imm 0))
  | .reg .int i => (regArg s .int i).map .int
  | .reg .float i => (regArg s .float i).map .float
  | .reg .string i => (regArg s .string i).map .string
  | .reg .pointer i => (regArg s .pointer i).map .pointer
  | .konst .int i => (immArg s s.konst.ints i).map .int
  | .konst .float i => (immArg s s.konst.floats i).map .float
  | .konst .string i => (immArg s s.konst.strings i).map .string
  | .konst .pointer i => (immArg s s.konst.pointers i).map .pointer

/-- A string operand of a comparison. -/
def comparedString (s : Script) (isKonst : Bool) (i : UInt8) : Except CompileError (Arg String) :=
  if isKonst then immArg s s.konst.strings i.toNat else regArg s .string i.toNat

/-! ## Control -/

/-- An error about the instruction at `pc`. -/
def malformed {α : Type} (s : Script) (pc : Nat) (reason : String) : Except CompileError α :=
  .error (.malformed s.name s!"instruction {pc}: {reason}")

/-- A label: an instruction or the end of the code. -/
def label (s : Script) (target : Int) : Except CompileError Nat :=
  if 0 ≤ target ∧ target ≤ (s.code.size : Int) then .ok target.toNat
  else outOfRange s (s.code.size + 1) target.toNat

/-- Where a skip from `pc` leads. -/
def skipLabel (s : Script) (pc : Nat) : Nat := min (pc + 2) s.code.size

/-- Go on with the next instruction when the test comes out as the check bit says, else skip it. -/
def compareSkip (s : Script) (pc : Nat) (i : Instr) (test : Test) : Op :=
  if clearIn checkBit i.a then .branch test (skipLabel s pc) (pc + 1)
  else .branch test (pc + 1) (skipLabel s pc)

/-- Slot and finality of a return, with its value. -/
def returnOp (i : Instr) (value : Operand) : Op :=
  .ret (i.a &&& 127).toNat value (!clearIn finalBit i.a)

/-- The slot of the next parameter. -/
def nextParam (s : Script) (pc pending : Nat) : Except CompileError Nat :=
  if pending < s.maxParam.toNat then .ok pending
  else malformed s pc s!"parameter area of {s.maxParam.toNat} values overflowed"

/-- The register that the result instruction at an index names. -/
def resultTarget (s : Script) (pc : Nat) : Except CompileError Target := do
  let r ← useAt s s.code pc
  return ⟨.ofTag r.b, ← useReg s (.ofTag r.b) r.c.toNat⟩

/-- A call with the last `i.b` of the pending parameters and `i.c` results. -/
def callOp (s : Script) (pc pending : Nat) (i : Instr) (callee : Arg Address) :
    Except CompileError Op :=
  let count := i.b.toNat
  let results := i.c.toNat
  if maxReturns < results then
    malformed s pc s!"{results} results exceed the limit of {maxReturns}"
  else if pending < count then
    malformed s pc s!"call wants {count} parameters, {pending} pushed"
  else do
    let targets ← (List.range results).mapM fun k => resultTarget s (pc + 1 + k)
    return .call callee (pending - count) count targets

/-! ## Instructions -/

/-- Lower the instruction at `pc` in front of which `pending` parameters are pending. -/
def lowerOp (s : Script) (pc pending : Nat) (op : Opcode) (i : Instr) : Except CompileError Op :=
  let a := i.a.toNat
  let b := i.b.toNat
  let c := i.c.toNat
  let bc := i.bc.toNat
  match op with
  | .nop | .result => .ok .nop
  | .jmp => do return .jump (← label s (jumpTarget pc i))
  | .test => do
    let test := .differs (← useReg s .int a) false i.bc.toUInt32.toInt32
    return .branch test (skipLabel s pc) (pc + 1)
  | .testn => do
    let test := .differs (← useReg s .int a) true i.bc.toUInt32.toInt32
    return .branch test (skipLabel s pc) (pc + 1)
  | .ret =>
    if i.b = nilTag then .ok .retNil
    else do return returnOp i (← operand s (.decode i.b c))
  | .reti => .ok (returnOp i (.int (.imm i.bcSigned.toInt32)))
  | .throw => do
    return .throw (← if a = 0 then regArg s .pointer bc else immArg s s.konst.pointers bc)
  | .bound => do return .checkBound (← useReg s .int a) (.imm i.bc.toUInt32.toInt32)
  | .boundK => do return .checkBound (← useReg s .int a) (← immArg s s.konst.ints bc)
  | .boundR => do return .checkBound (← useReg s .int a) (← regArg s .int b)
  | .li => do return .setInt (← useReg s .int a) (.imm i.bcSigned.toInt32)
  | .lk => do return .setInt (← useReg s .int a) (← immArg s s.konst.ints bc)
  | .lkf => do return .setFloat (← useReg s .float a) (← immArg s s.konst.floats bc)
  | .lks => do return .setString (← useReg s .string a) (← immArg s s.konst.strings bc)
  | .lkp => do return .setPointer (← useReg s .pointer a) (← immArg s s.konst.pointers bc)
  | .load w o => do
    return .load w (← useReg s w.regClass a) (← useReg s .pointer b) (← offsetArg s i o)
  | .store w o => do
    return .store w (← useReg s .pointer a) (← useReg s w.regClass b) (← offsetArg s i o)
  | .mov => do return .setInt (← useReg s .int a) (← regArg s .int b)
  | .movf => do return .setFloat (← useReg s .float a) (← regArg s .float b)
  | .movs => do return .setString (← useReg s .string a) (← regArg s .string b)
  | .mova => do return .setPointer (← useReg s .pointer a) (← regArg s .pointer b)
  | .cast =>
    match Cast.ofByte? i.c with
    | some kind => do
      return .convert kind (← useReg s kind.target a) (← useReg s kind.source b)
    | none => malformed s pc s!"unknown cast kind {c}"
  | .param => do
    let value ← operand s (.decode i.a bc)
    return .param (← nextParam s pc pending) value
  | .parami => do return .param (← nextParam s pc pending) (.int (.imm i.abc))
  | .call => do callOp s pc pending i (← regArg s .pointer a)
  | .callK => do callOp s pc pending i (← immArg s s.konst.pointers a)
  | .new => do return .alloc (← useReg s .pointer a) (← regArg s .int b)
  | .newK => do return .alloc (← useReg s .pointer a) (← immArg s s.konst.ints bc)
  | .concat => do
    return .concat (← useReg s .string a) (← useReg s .string b) (← useReg s .string c)
  | .lens => do return .length (← useReg s .int a) (← useReg s .string b)
  | .cmps => do
    let l ← comparedString s (!clearIn leftKonstBit i.a) i.b
    let r ← comparedString s (!clearIn rightKonstBit i.a) i.c
    return compareSkip s pc i (.string i.a l r)
  | .intOp o form => do
    let (l, r) ← binary s .int s.konst.ints i form (some (op.immediate i.c))
    return .intOp o (← useReg s .int a) l r
  | .abs => do return .intUnary .abs (← useReg s .int a) (← useReg s .int b)
  | .neg => do return .intUnary .neg (← useReg s .int a) (← useReg s .int b)
  | .not => do return .intUnary .not (← useReg s .int a) (← useReg s .int b)
  | .sext => do return .intUnary (.sext i.c) (← useReg s .int a) (← useReg s .int b)
  | .intCmp cmp form => do
    let (l, r) ← binary s .int s.konst.ints i form none
    return compareSkip s pc i (.int cmp l r)
  | .floatOp o form => do
    let (l, r) ← binary s .float s.konst.floats i form none
    return .floatOp o (← useReg s .float a) l r
  | .flop => do return .flop i.c (← useReg s .float a) (← useReg s .float b)
  | .floatCmp cmp form => do
    let (l, r) ← binary s .float s.konst.floats i form none
    return compareSkip s pc i (.float cmp (!clearIn approxBit i.a) l r)
  | .addaRR => do
    return .movePointer (← useReg s .pointer a) (← useReg s .pointer b) (← regArg s .int c)
  | .addaRK => do
    return .movePointer (← useReg s .pointer a) (← useReg s .pointer b)
      (← immArg s s.konst.ints c)
  | .suba => do
    return .distance (← useReg s .int a) (← useReg s .pointer b) (← useReg s .pointer c)
  | .eqaR => do
    return compareSkip s pc i (.pointer (← regArg s .pointer b) (← regArg s .pointer c))
  | .eqaK => do
    return compareSkip s pc i (.pointer (← regArg s .pointer b) (← immArg s s.konst.pointers c))

/-- Pending parameters behind an instruction. -/
def pendingAfter (pending : Nat) (op : Opcode) (i : Instr) : Nat :=
  match op with
  | .param | .parami => pending + 1
  | .call | .callK => pending - i.b.toNat
  | _ => pending

/-- Lower instructions from index `pc` on. -/
def lowerFrom (s : Script) : List Instr → Nat → Nat → Except CompileError (List Op)
  | [], _, _ => .ok []
  | i :: rest, pc, pending =>
    match i.opcode? with
    | none => .error (.unknownOpcode pc i.op)
    | some op =>
      match lowerOp s pc pending op i with
      | .error e => .error e
      | .ok lowered =>
        match lowerFrom s rest (pc + 1) (pendingAfter pending op i) with
        | .error e => .error e
        | .ok ops => .ok (lowered :: ops)

/-- The lowered operations of a script. -/
def lowerCode (s : Script) : Except CompileError (Array Op) :=
  (lowerFrom s s.code.toList 0 0).map List.toArray

end TierVm.Lowering

namespace TierVm

/-! ## Compiled functions -/

/-- Compiled code of a function. -/
structure CompiledCode where
  function : FunctionId
  name : String
  ops : Array Lowered.Op
  /-- Bytes of machine code. -/
  size : Nat
  /-- One line for each instruction, if a listing was asked for. -/
  listing : Option (List String)
  deriving Inhabited

/-- The listing line of the instruction at `pc`. -/
def Script.listingLine (s : Script) (pc : Nat) (i : Instr) : String :=
  let mnemonic := ((Opcode.row? i.op).map (·.mnemonic)).getD "???"
  let bytes := String.join (i.bytes.map hexByte)
  s!"; {s.name}(line {(s.line pc).toNat}): {bytes} {mnemonic}"

/-- The listing of a script. -/
def Script.listing (s : Script) : List String :=
  s.code.toList.zipIdx.map fun (i, pc) => s.listingLine pc i

/-- Compile a script, which must pass verification. -/
def compile (id : FunctionId) (s : Script) (capture : Bool) : Except CompileError CompiledCode :=
  match s.verify with
  | .error d => .error (.ofDefect d)
  | .ok _ =>
    match Lowering.lowerCode s with
    | .error e => .error e
    | .ok ops =>
      .ok
        { function := id
          name := s.name
          ops
          size := s.codeSize
          listing := if capture then some s.listing else none }

end TierVm
