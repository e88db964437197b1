import TierVm.Arith.Float
import TierVm.Arith.Int
import TierVm.Exec.Convert

/-!
# Lowered code

Compiled code is a sequence of lowered operations, one for each instruction.  Constants stand in
the operations themselves, jumps name their targets, and parameters and calls name fixed slots of
the parameter area.  `Lowered.step` tells the effect of an operation.  Results of a call that are
no strings land in scratch cells, which hold the old values of their registers and are copied back
in order.

Machine code is given the number of arguments and the number of slots of its caller in signed words
of 32 bits.  Both are taken to be below `2 ^ 31` here, so that counting them in natural numbers
comes to the same.
-/

namespace TierVm.Lowered

/-! ## Operands -/

/-- A register or a constant. -/
inductive Arg (α : Type) where
  | reg (index : Nat)
  | imm (value : α)
  deriving DecidableEq, Repr, Inhabited

/-- A register or a constant of any class. -/
inductive Operand where
  | int (arg : Arg Int32)
  | float (arg : Arg Float)
  | string (arg : Arg String)
  | pointer (arg : Arg Address)

/-- Class of an operand. -/
def Operand.regClass : Operand → RegClass
  | .int _ => .int
  | .float _ => .float
  | .string _ => .string
  | .pointer _ => .pointer

/-- A condition to branch on. -/
inductive Test where
  | int (cmp : IntCmp) (l r : Arg Int32)
  | float (cmp : FloatCmp) (approx : Bool) (l r : Arg Float)
  | string (flags : UInt8) (l r : Arg String)
  | pointer (l r : Arg Address)
  /-- The register, negated if so told, differs from a value. -/
  | differs (index : Nat) (negate : Bool) (value : Int32)

/-- Unary integer operations. -/
inductive IntUnary where
  | abs
  | neg
  | not
  | sext (bits : UInt8)
  deriving DecidableEq, Repr

/-- A lowered operation. -/
inductive Op where
  | nop
  | jump (target : Nat)
  | branch (test : Test) (yes no : Nat)
  | checkBound (index : Nat) (limit : Arg Int32)
  | throw (object : Arg Address)
  | retNil
  | ret (slot : Nat) (value : Operand) (last : Bool)
  | setInt (dst : Nat) (src : Arg Int32)
  | setFloat (dst : Nat) (src : Arg Float)
  | setString (dst : Nat) (src : Arg String)
  | setPointer (dst : Nat) (src : Arg Address)
  | intOp (op : IntOp) (dst : Nat) (l r : Arg Int32)
  | floatOp (op : FloatOp) (dst : Nat) (l r : Arg Float)
  | intUnary (op : IntUnary) (dst src : Nat)
  | flop (code : UInt8) (dst src : Nat)
  | load (width : Width) (dst base : Nat) (offset : Arg Int32)
  | store (width : Width) (base src : Nat) (offset : Arg Int32)
  | convert (kind : Cast) (dst src : Nat)
  | param (slot : Nat) (value : Operand)
  | call (callee : Arg Address) (first count : Nat) (targets : List Target)
  | alloc (dst : Nat) (size : Arg Int32)
  | concat (dst l r : Nat)
  | length (dst src : Nat)
  | movePointer (dst base : Nat) (offset : Arg Int32)
  | distance (dst l r : Nat)

/-! ## Evaluation of operands -/

/-- The value of an integer operand. -/
def intArg (act : Activation) : Arg Int32 → Except Trap Int32
  | .reg i => act.int i
  | .imm x => .ok x

/-- The value of a float operand. -/
def floatArg (act : Activation) : Arg Float → Except Trap Float
  | .reg i => act.float i
  | .imm x => .ok x

/-- The value of a string operand. -/
def stringArg (act : Activation) : Arg String → Except Trap String
  | .reg i => act.string i
  | .imm x => .ok x

/-- The value of a pointer operand. -/
def pointerArg (act : Activation) : Arg Address → Except Trap Address
  | .reg i => act.pointer i
  | .imm x => .ok x

/-- The value of an operand of any class. -/
def Operand.eval (act : Activation) : Operand → Except Trap Value
  | .int x => (intArg act x).map .int
  | .float x => (floatArg act x).map .float
  | .string x => (stringArg act x).map .string
  | .pointer x => (pointerArg act x).map .pointer

/-- The parameter that an operand stands for. -/
def Operand.param (act : Activation) : Operand → Except Trap Param
  | .string (.reg i) => (act.string i).map fun _ => .stringRegister i
  | v => (v.eval act).map .value

/-- The outcome of a test. -/
def Test.eval (act : Activation) : Test → Except Trap Bool
  | .int cmp l r => do return cmp.eval (← intArg act l) (← intArg act r)
  | .float cmp approx l r => do return cmp.eval approx (← floatArg act l) (← floatArg act r)
  | .string flags l r => do return compareStrings flags (← stringArg act l) (← stringArg act r)
  | .pointer l r => do return (← pointerArg act l) == (← pointerArg act r)
  | .differs i negate value => do
    let x ← act.int i
    return (if negate then -x else x) != value

/-! ## Arithmetic in line -/

/-- The divisor of a signed division: dividing the least integer by minus one would overflow, so
it is divided by one instead. -/
def safeDivisor (l r : Int32) : Int32 := if l = Int32.minValue ∧ r = -1 then 1 else r

/-- Integer operations as compiled code performs them. -/
def inlineInt (op : IntOp) (l r : Int32) : Option Int32 :=
  match op with
  | .div => if r = 0 then none else some (l / safeDivisor l r)
  | .mod => if r = 0 then none else some (l % safeDivisor l r)
  | op => op.eval l r

/-- Unary integer operations. -/
def IntUnary.eval (x : Int32) : IntUnary → Int32
  | .abs => wrappingAbs x
  | .neg => -x
  | .not => ~~~x
  | .sext bits => signExtend x bits

/-! ## Operations -/

/-- Call a function with the parameters in fixed slots. -/
def call (callee : Address) (first count : Nat) (targets : List Target) : Except Trap Effect :=
  if callee = 0 then abortWith .readNil 0 else .ok (.call callee first count targets .scratch)

/-- The effect of one lowered operation.  A return leaves its value if the caller has provided the
slot, of fewer than `2 ^ 31`. -/
def step (act : Activation) (op : Op) : Except Trap Effect :=
  match op with
  | .nop => .ok act.onward
  | .jump target => .ok (.goto target false)
  | .branch test yes no => do return .goto (if ← test.eval act then yes else no) false
  | .checkBound index limit => do act.checkBound (← act.int index) (← intArg act limit)
  | .throw object => do .error (.abort (.ofError (.thrown (← pointerArg act object))))
  | .retNil => .ok .leave
  | .ret slot value last => do
    if slot < act.slots.size then act.give slot (← value.eval act) last
    else return .give slot none last
  | .setInt dst src => do return .put dst (.int (← intArg act src))
  | .setFloat dst src => do return .put dst (.float (← floatArg act src))
  | .setString dst src => do return .put dst (.string (← stringArg act src))
  | .setPointer dst src => do return .put dst (.pointer (← pointerArg act src))
  | .intOp op dst l r => do
    match inlineInt op (← intArg act l) (← intArg act r) with
    | some x => return .put dst (.int x)
    | none => abortWith .divisionByZero 0
  | .floatOp op dst l r => do
    match op.eval (← floatArg act l) (← floatArg act r) with
    | some x => return .put dst (.float x)
    | none => abortWith .divisionByZero 0
  | .intUnary op dst src => do return .put dst (.int (op.eval (← act.int src)))
  | .flop code dst src => do return .put dst (.float (TierVm.flop code (← act.float src)))
  | .load w dst base offset => do act.load w dst (← act.pointer base) (← intArg act offset)
  | .store w base src offset => do
    Activation.store w (← act.pointer base) (← intArg act offset) (← act.value w.regClass src)
  | .convert kind dst src => act.convert kind dst src
  | .param slot value => do return .param slot (← value.param act)
  | .call callee first count targets => do
    call (← pointerArg act callee) first count targets
  | .alloc dst size => do Activation.alloc dst (← intArg act size)
  | .concat dst l r => do return .put dst (.string ((← act.string l) ++ (← act.string r)))
  | .length dst src => do return .put dst (.int (stringLength (← act.string src)))
  | .movePointer dst base offset => do
    return .put dst (.pointer (TierVm.movePointer (← act.pointer base) (← intArg act offset)))
  | .distance dst l r => do
    return .put dst (.int (pointerDistance (← act.pointer l) (← act.pointer r)))

/-- How an abort of an operation enters an exception record.  A thrown object and a refused
allocation are raised by a routine.  Every other abort comes from a guard in line, which leaves the
payload alone. -/
def Op.fill : Op → ExceptionRecord → Abort → Option Location → ExceptionRecord
  | .throw _ | .alloc _ _ => ExceptionRecord.raise
  | _ => ExceptionRecord.store

end TierVm.Lowered
