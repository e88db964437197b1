import TierVm.Code.Defect
import TierVm.Code.Operand
import TierVm.Code.Script

/-!
# Verification

`Script.verify` checks every operand of every instruction against the register files and constant
pools, the targets of jumps, and the protocol of parameters, calls and results.  Pending
parameters are counted in instruction order, and every jump or skip must land where that count is
the same as behind the branch, so a call finds its parameters in the same slots on every path.

* `needs` lists what an instruction requires of its operands, in the order it is checked.
* `Script.pendingAfter` is the count of pending parameters behind an instruction.
* `Script.pendingCounts` is the count in front of every instruction and at the end.
* A `LoadedScript` is a script with its verdict.
-/

namespace TierVm

/-- A requirement on one operand. -/
inductive Need where
  | reg (cls : RegClass) (index : Nat)
  | konst (cls : RegClass) (index : Nat)
  /-- A jump target lies inside the code or just behind it. -/
  | target (index : Int)
  /-- An operand byte has a meaning. -/
  | valid (ok : Bool) (what : OperandKind)
  deriving DecidableEq, Repr

namespace Need

/-- The operand in the last byte, or in the last two. -/
def ofSource : Source → List Need
  | .nil => []
  | .reg cls i => [.reg cls i]
  | .konst cls i => [.konst cls i]

/-- A tagged operand of a parameter or a return. -/
def tagged (flags : UInt8) (index : Nat) : List Need :=
  .valid (Source.validTag flags) .registerType :: ofSource (.decode flags index)

/-- The two inputs of a binary operation. -/
def sources (cls : RegClass) (i : Instr) : Form → List Need
  | .rr => [.reg cls i.b.toNat, .reg cls i.c.toNat]
  | .rk => [.reg cls i.b.toNat, .konst cls i.c.toNat]
  | .kr => [.konst cls i.b.toNat, .reg cls i.c.toNat]
  | .ri => [.reg cls i.b.toNat]

/-- The byte offset of a memory access. -/
def offset (i : Instr) : Offset → Need
  | .register => .reg .int i.c.toNat
  | .konst => .konst .int i.c.toNat

end Need

/-- Index that a jump at `pc` leads to. -/
def jumpTarget (pc : Nat) (i : Instr) : Int := (pc : Int) + 1 + i.abc.toInt

/-- What an instruction requires of its operands, in the order it is checked. -/
def needs (op : Opcode) (pc : Nat) (i : Instr) : List Need :=
  let a := i.a.toNat
  let b := i.b.toNat
  let c := i.c.toNat
  let bc := i.bc.toNat
  match op with
  | .nop | .reti | .parami => []
  | .jmp => [.target (jumpTarget pc i)]
  | .test | .testn | .li | .bound => [.reg .int a]
  | .ret => Need.tagged i.b c
  | .throw =>
    if a = 0 then [.reg .pointer bc]
    else if a = 1 then [.konst .pointer bc]
    else [.valid false .throwMode]
  | .boundK | .lk => [.reg .int a, .konst .int bc]
  | .boundR => [.reg .int a, .reg .int b]
  | .lkf => [.reg .float a, .konst .float bc]
  | .lks => [.reg .string a, .konst .string bc]
  | .lkp => [.reg .pointer a, .konst .pointer bc]
  | .load w o => [.reg w.regClass a, .reg .pointer b, Need.offset i o]
  | .store w o => [.reg .pointer a, .reg w.regClass b, Need.offset i o]
  | .mov | .abs | .neg | .not => [.reg .int a, .reg .int b]
  | .movf => [.reg .float a, .reg .float b]
  | .movs => [.reg .string a, .reg .string b]
  | .mova => [.reg .pointer a, .reg .pointer b]
  | .cast =>
    match Cast.ofByte? i.c with
    | some kind => [.reg kind.target a, .reg kind.source b]
    | none => [.valid false .castKind]
  | .param => Need.tagged i.a bc
  | .call => [.reg .pointer a]
  | .callK => [.konst .pointer a]
  | .result => [.valid (clearIn (konstBit ||| nilTag) i.b) .resultType, .reg (.ofTag i.b) c]
  | .new => [.reg .pointer a, .reg .int b]
  | .newK => [.reg .pointer a, .konst .int bc]
  | .concat => [.reg .string a, .reg .string b, .reg .string c]
  | .lens => [.reg .int a, .reg .string b]
  | .cmps =>
    .valid (i.a &&& methodMask != methodMask) .compareMethod ::
      (Need.ofSource (.ofCompare (!clearIn leftKonstBit i.a) i.b) ++
        Need.ofSource (.ofCompare (!clearIn rightKonstBit i.a) i.c))
  | .intOp _ form => .reg .int a :: Need.sources .int i form
  | .sext => [.reg .int a, .reg .int b, .valid (decide (1 ≤ c ∧ c ≤ 32)) .signWidth]
  | .intCmp _ form => Need.sources .int i form
  | .floatOp _ form => .reg .float a :: Need.sources .float i form
  | .flop => [.reg .float a, .reg .float b, .valid (decide (c < flopCount)) .floatOperation]
  | .floatCmp _ form => Need.sources .float i form
  | .addaRR => [.reg .pointer a, .reg .pointer b, .reg .int c]
  | .addaRK => [.reg .pointer a, .reg .pointer b, .konst .int c]
  | .suba => [.reg .int a, .reg .pointer b, .reg .pointer c]
  | .eqaR => [.reg .pointer b, .reg .pointer c]
  | .eqaK => [.reg .pointer b, .konst .pointer c]

namespace Script

/-- Check one requirement of the instruction at `pc`. -/
def require (s : Script) (pc : Nat) : Need → Except Defect Unit
  | .reg cls i => if i < s.regs.of cls then .ok () else .error (.registerOutOfRange pc cls i)
  | .konst cls i =>
    if i < s.konst.sizeOf cls then .ok () else .error (.constantOutOfRange pc cls i)
  | .target t =>
    if 0 ≤ t ∧ t ≤ (s.code.size : Int) then .ok () else .error (.jumpOutOfRange pc t)
  | .valid ok what => if ok then .ok () else .error (.invalidOperand pc what)

/-- Check requirements in order; the first that fails is reported. -/
def requireAll (s : Script) (pc : Nat) : List Need → Except Defect Unit
  | [] => .ok ()
  | n :: rest =>
    match s.require pc n with
    | .ok _ => s.requireAll pc rest
    | .error d => .error d

/-- Whether `count` result instructions follow the instruction at `pc`. -/
def resultsFollow (s : Script) (pc count : Nat) : Bool :=
  (List.range count).all fun i =>
    (s.code[pc + 1 + i]?).map (·.op) == some Opcode.result.byte

/-- Pending parameters behind an instruction that has `pending` of them in front. -/
def pendingAfter (s : Script) (pc pending : Nat) (op : Opcode) (i : Instr) :
    Except Defect Nat :=
  match op with
  | .param | .parami =>
    if pending < s.maxParam.toNat then .ok (pending + 1)
    else .error (.paramOverflow pc s.maxParam.toNat)
  | .call | .callK =>
    let wanted := i.b.toNat
    let count := i.c.toNat
    if pending < wanted then .error (.paramUnderflow pc wanted pending)
    else if maxReturns < count then .error (.tooManyResults pc count)
    else if s.resultsFollow pc count then .ok (pending - wanted)
    else .error (.missingResult pc count)
  | _ => .ok pending

/-- Check one instruction and count the pending parameters behind it. -/
def checkInstr (s : Script) (pc pending : Nat) (i : Instr) : Except Defect Nat :=
  match i.opcode? with
  | none => .error (.unknownOpcode pc i.op)
  | some op =>
    match s.requireAll pc (needs op pc i) with
    | .error d => .error d
    | .ok _ => s.pendingAfter pc pending op i

/-- Check instructions from index `pc` on; the counts in front of each and behind the last. -/
def checkFrom (s : Script) : List Instr → Nat → Nat → Except Defect (List Nat)
  | [], _, pending => .ok [pending]
  | i :: rest, pc, pending =>
    match s.checkInstr pc pending i with
    | .error d => .error d
    | .ok after =>
      match s.checkFrom rest (pc + 1) after with
      | .error d => .error d
      | .ok counts => .ok (pending :: counts)

/-- Pending parameters in front of every instruction and at the end of the code. -/
def pendingCounts (s : Script) : Except Defect (List Nat) := s.checkFrom s.code.toList 0 0

/-- Where an instruction leads other than to the next one. -/
def branchTarget? (pc : Nat) (i : Instr) : Option Nat :=
  match i.opcode? with
  | none => none
  | some .jmp => some (jumpTarget pc i).toNat
  | some op => if op.skips then some (pc + 2) else none

/-- The defect of the branch at `pc`, if it lands inside the code with another count. -/
def branchDefect? (s : Script) (counts : Array Nat) (pc : Nat) : Option Defect :=
  match (s.code[pc]?).bind (branchTarget? pc) with
  | none => none
  | some target =>
    let pending := counts.getD (pc + 1) 0
    let expected := counts.getD target 0
    if target < s.code.size ∧ expected ≠ pending then
      some (.paramMismatch pc target pending expected)
    else none

/-- Accept a script, or report its first defect. -/
def verify (s : Script) : Except Defect Unit :=
  match s.pendingCounts with
  | .error d => .error d
  | .ok counts =>
    let counts := counts.toArray
    match (List.range s.code.size).findSome? (s.branchDefect? counts) with
    | some d => .error d
    | none => .ok ()

end Script

/-- A script with the outcome of its verification, which is found once for all its calls. -/
structure LoadedScript where
  script : Script
  verdict : Except Defect Unit
  verdict_eq : verdict = script.verify

/-- Verify a script. -/
def Script.load (s : Script) : LoadedScript := ⟨s, s.verify, rfl⟩

end TierVm
