import TierVm.Arith.Float
import TierVm.Arith.Int
import TierVm.Code.Verify
import TierVm.Exec.Convert

/-!
# The interpreter

`Interpreter.step` tells the effect of one encoded instruction.  It decodes operands as it goes:
registers from the activation, constants from the pools of the script.  Pending parameters are
counted in the activation, and the results of a call go straight into the registers named.
-/

namespace TierVm.Interpreter

/-! ## Operands -/

/-- Read an integer constant. -/
def konstInt (s : Script) (i : Nat) : Except Trap Int32 := inRange s.konst.ints[i]?

/-- Read a float constant. -/
def konstFloat (s : Script) (i : Nat) : Except Trap Float := inRange s.konst.floats[i]?

/-- Read a string constant. -/
def konstString (s : Script) (i : Nat) : Except Trap String := inRange s.konst.strings[i]?

/-- Read a pointer constant. -/
def konstPointer (s : Script) (i : Nat) : Except Trap Address := inRange s.konst.pointers[i]?

/-- The two inputs of an integer operation. -/
def intInputs (s : Script) (act : Activation) (op : Opcode) (i : Instr) (form : Form) :
    Except Trap (Int32 × Int32) :=
  match form with
  | .rr => do return (← act.int i.b.toNat, ← act.int i.c.toNat)
  | .rk => do return (← act.int i.b.toNat, ← konstInt s i.c.toNat)
  | .kr => do return (← konstInt s i.b.toNat, ← act.int i.c.toNat)
  | .ri => do return (← act.int i.b.toNat, op.immediate i.c)

/-- The two inputs of an integer comparison. -/
def intCompared (s : Script) (act : Activation) (i : Instr) (form : Form) :
    Except Trap (Int32 × Int32) :=
  match form with
  | .rk => do return (← act.int i.b.toNat, ← konstInt s i.c.toNat)
  | .kr => do return (← konstInt s i.b.toNat, ← act.int i.c.toNat)
  | _ => do return (← act.int i.b.toNat, ← act.int i.c.toNat)

/-- The two inputs of an operation or comparison of doubles. -/
def floatInputs (s : Script) (act : Activation) (i : Instr) (form : Form) :
    Except Trap (Float × Float) :=
  match form with
  | .rk => do return (← act.float i.b.toNat, ← konstFloat s i.c.toNat)
  | .kr => do return (← konstFloat s i.b.toNat, ← act.float i.c.toNat)
  | _ => do return (← act.float i.b.toNat, ← act.float i.c.toNat)

/-- The byte offset of a memory access. -/
def offsetOf (s : Script) (act : Activation) (i : Instr) (o : Offset) : Except Trap Int32 :=
  match o with
  | .register => act.int i.c.toNat
  | .konst => konstInt s i.c.toNat

/-- The value of a tagged operand; an absent one is the null pointer. -/
def sourceValue (s : Script) (act : Activation) (src : Source) : Except Trap Value :=
  match src with
  | .nil => .ok (.pointer 0)
  | .reg cls i => act.value cls i
  | .konst cls i => inRange (s.konst.get? cls i)

/-- A string operand of a comparison. -/
def comparedString (s : Script) (act : Activation) (isKonst : Bool) (i : UInt8) :
    Except Trap String :=
  if isKonst then konstString s i.toNat else act.string i.toNat

/-! ## Control -/

/-- Whether the check bit of a comparison is set. -/
def expected (i : Instr) : Bool := !clearIn checkBit i.a

/-- Go on with the next instruction, or skip it. -/
def skipWhen (s : Script) (act : Activation) (skip : Bool) : Effect :=
  if skip then .goto (min (act.pc + 2) s.code.size) false else act.onward

/-- Jump.  The target must lie in the code or just behind it. -/
def jump (s : Script) (act : Activation) (i : Instr) : Except Trap Effect :=
  let target := jumpTarget act.pc i
  if 0 ≤ target ∧ target ≤ (s.code.size : Int) then
    .ok (.goto target.toNat (decide (target.toNat ≤ act.pc)))
  else .error (.stop .badIndex)

/-- Return one value. -/
def giveBack (s : Script) (act : Activation) (op : Opcode) (i : Instr) : Except Trap Effect := do
  let slot := (i.a &&& 127).toNat
  let last := !clearIn finalBit i.a
  if slot < act.slots.size then
    let v ←
      if op = .reti then pure (Value.int i.bcSigned.toInt32)
      else sourceValue s act (.decode i.b i.c.toNat)
    act.give slot v last
  else return .give slot none last

/-- Push a parameter. -/
def pushParam (s : Script) (act : Activation) (p : Param) : Except Trap Effect :=
  if act.params.size ≤ act.numParam then
    .error (.abort (.ofError (.malformed s!"parameter area of {s.name} overflowed")))
  else .ok (.param act.numParam p)

/-- The parameter that a tagged operand stands for. -/
def paramOf (s : Script) (act : Activation) (src : Source) : Except Trap Param :=
  match src with
  | .reg .string i => (act.string i).map fun _ => .stringRegister i
  | src => (sourceValue s act src).map .value

/-- The register that the result instruction at an index names. -/
def resultTarget (s : Script) (pc : Nat) : Except Trap Target :=
  (inRange s.code[pc]?).map fun r => ⟨.ofTag r.b, r.c.toNat⟩

/-- Call a function with the last `i.b` parameters and `i.c` results. -/
def call (s : Script) (act : Activation) (callee : Address) (i : Instr) : Except Trap Effect :=
  if callee = 0 then abortWith .readNil 0
  else if act.numParam < i.b.toNat then abortWith .other 0
  else do
    let targets ← (List.range i.c.toNat).mapM fun k => resultTarget s (act.pc + 1 + k)
    return .call callee (act.numParam - i.b.toNat) i.b.toNat targets .registers

/-! ## Instructions -/

/-- The effect of a decoded instruction. -/
def execute (s : Script) (act : Activation) (op : Opcode) (i : Instr) : Except Trap Effect :=
  let a := i.a.toNat
  let b := i.b.toNat
  let c := i.c.toNat
  let bc := i.bc.toNat
  match op with
  | .nop | .result => .ok act.onward
  | .jmp => jump s act i
  | .test => do return skipWhen s act ((← act.int a) != i.bc.toUInt32.toInt32)
  | .testn => do return skipWhen s act (-(← act.int a) != i.bc.toUInt32.toInt32)
  | .ret => if i.b = nilTag then .ok .leave else giveBack s act op i
  | .reti => giveBack s act op i
  | .throw => do
    let object ← if a = 0 then act.pointer bc else konstPointer s bc
    .error (.abort (.ofError (.thrown object)))
  | .bound => do act.checkBound (← act.int a) i.bc.toUInt32.toInt32
  | .boundK => do act.checkBound (← act.int a) (← konstInt s bc)
  | .boundR => do act.checkBound (← act.int a) (← act.int b)
  | .li => return .put a (.int i.bcSigned.toInt32)
  | .lk => do return .put a (.int (← konstInt s bc))
  | .lkf => do return .put a (.float (← konstFloat s bc))
  | .lks => do return .put a (.string (← konstString s bc))
  | .lkp => do return .put a (.pointer (← konstPointer s bc))
  | .load w o => do
    let base ← act.pointer b
    let offset ← offsetOf s act i o
    act.load w a base offset
  | .store w o => do
    let base ← act.pointer a
    let offset ← offsetOf s act i o
    Activation.store w base offset (← act.value w.regClass b)
  | .mov => do return .put a (.int (← act.int b))
  | .movf => do return .put a (.float (← act.float b))
  | .movs => do return .put a (.string (← act.string b))
  | .mova => do return .put a (.pointer (← act.pointer b))
  | .cast =>
    match Cast.ofByte? i.c with
    | some kind => act.convert kind a b
    | none => abortWith .other 0
  | .param => do pushParam s act (← paramOf s act (.decode i.a bc))
  | .parami => pushParam s act (.value (.int i.abc))
  | .call => do call s act (← act.pointer a) i
  | .callK => do call s act (← konstPointer s a) i
  | .new => do Activation.alloc a (← act.int b)
  | .newK => do Activation.alloc a (← konstInt s bc)
  | .concat => do return .put a (.string ((← act.string b) ++ (← act.string c)))
  | .lens => do return .put a (.int (stringLength (← act.string b)))
  | .cmps => do
    let l ← comparedString s act (!clearIn leftKonstBit i.a) i.b
    let r ← comparedString s act (!clearIn rightKonstBit i.a) i.c
    return skipWhen s act (compareStrings i.a l r != expected i)
  | .intOp o form => do
    let (l, r) ← intInputs s act op i form
    match o.eval l r with
    | some x => return .put a (.int x)
    | none => abortWith .divisionByZero 0
  | .abs => do return .put a (.int (wrappingAbs (← act.int b)))
  | .neg => do return .put a (.int (-(← act.int b)))
  | .not => do return .put a (.int (~~~(← act.int b)))
  | .sext => do return .put a (.int (signExtend (← act.int b) i.c))
  | .intCmp cmp form => do
    let (l, r) ← intCompared s act i form
    return skipWhen s act (cmp.eval l r != expected i)
  | .floatOp o form => do
    let (l, r) ← floatInputs s act i form
    match o.eval l r with
    | some x => return .put a (.float x)
    | none => abortWith .divisionByZero 0
  | .flop => do return .put a (.float (flop i.c (← act.float b)))
  | .floatCmp cmp form => do
    let (l, r) ← floatInputs s act i form
    return skipWhen s act (cmp.eval (!clearIn approxBit i.a) l r != expected i)
  | .addaRR => do
    return .put a (.pointer (movePointer (← act.pointer b) (← act.int c)))
  | .addaRK => do
    return .put a (.pointer (movePointer (← act.pointer b) (← konstInt s c)))
  | .suba => do
    return .put a (.int (pointerDistance (← act.pointer b) (← act.pointer c)))
  | .eqaR => do return skipWhen s act (((← act.pointer b) == (← act.pointer c)) != expected i)
  | .eqaK => do return skipWhen s act (((← act.pointer b) == (← konstPointer s c)) != expected i)

/-- The effect of one encoded instruction. -/
def step (s : Script) (act : Activation) (i : Instr) : Except Trap Effect :=
  match i.opcode? with
  | none => abortWith .other 0
  | some op => execute s act op i

end TierVm.Interpreter
