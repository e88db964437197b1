import TierVm.Code.RegClass

/-!
# The instruction set

`Opcode` groups the operations by family: an arithmetic, compare, load or store operation carries
what it computes and where its inputs come from.  `Opcode.table` lists the operations that have an
encoding; the byte of an operation is its position in the table.
-/

namespace TierVm

/-- Where the two inputs of a binary operation come from. -/
inductive Form where
  /-- Both inputs are registers. -/
  | rr
  /-- A register and a constant. -/
  | rk
  /-- A constant and a register. -/
  | kr
  /-- A register and an immediate. -/
  | ri
  deriving DecidableEq, Repr, Inhabited

/-- Binary operations on 32-bit integers. -/
inductive IntOp where
  | add | sub | mul | div | divu | mod | modu | and | or | xor | shl | shr | sar | min | max
  deriving DecidableEq, Repr, Inhabited

/-- Binary operations on doubles. -/
inductive FloatOp where
  | add | sub | mul | div | mod | pow | min | max | atan2
  deriving DecidableEq, Repr, Inhabited

/-- Integer comparisons, signed and unsigned. -/
inductive IntCmp where
  | eq | lt | le | ltu | leu
  deriving DecidableEq, Repr, Inhabited

/-- Comparisons of doubles. -/
inductive FloatCmp where
  | eq | lt | le
  deriving DecidableEq, Repr, Inhabited

/-- Width and interpretation of a memory access. -/
inductive Width where
  | i8 | u8 | i16 | u16 | i32 | f32 | f64 | ptr
  deriving DecidableEq, Repr, Inhabited

namespace Width

/-- Number of bytes accessed. -/
def size : Width → Nat
  | .i8 | .u8 => 1
  | .i16 | .u16 => 2
  | .i32 | .f32 => 4
  | .f64 | .ptr => 8

/-- Class of the register that a memory access moves through. -/
def regClass : Width → RegClass
  | .f32 | .f64 => .float
  | .ptr => .pointer
  | _ => .int

end Width

/-- Where the byte offset of a memory access comes from. -/
inductive Offset where
  | konst
  | register
  deriving DecidableEq, Repr, Inhabited

/-- The operations of the machine. -/
inductive Opcode where
  | nop | jmp | test | testn | ret | reti | throw | bound | boundK | boundR
  | li | lk | lkf | lks | lkp
  | load (width : Width) (offset : Offset)
  | store (width : Width) (offset : Offset)
  | mov | movf | movs | mova | cast
  | param | parami | call | callK | result
  | new | newK
  | concat | lens | cmps
  | intOp (op : IntOp) (form : Form)
  | abs | neg | not | sext
  | intCmp (cmp : IntCmp) (form : Form)
  | floatOp (op : FloatOp) (form : Form)
  | flop
  | floatCmp (cmp : FloatCmp) (form : Form)
  | addaRR | addaRK | suba | eqaR | eqaK
  deriving DecidableEq, Repr, Inhabited

namespace Opcode

/-- One encoded operation: what it is, its assembler mnemonic and its long name. -/
structure Row where
  opcode : Opcode
  mnemonic : String
  name : String
  deriving Inhabited

/-- The encoded operations; the byte of an operation is its position.  Proofs look rows up by
evaluation only and never unfold the table. -/
@[irreducible] def table : Array Row := #[
  ⟨.nop, "NOP", "Nop"⟩,
  ⟨.jmp, "JMP", "Jmp"⟩,
  ⟨.test, "TEST", "Test"⟩,
  ⟨.testn, "TESTN", "TestN"⟩,
  ⟨.ret, "RET", "Ret"⟩,
  ⟨.reti, "RETI", "RetI"⟩,
  ⟨.throw, "THROW", "Throw"⟩,
  ⟨.bound, "BOUND", "Bound"⟩,
  ⟨.boundK, "BOUND_K", "BoundK"⟩,
  ⟨.boundR, "BOUND_R", "BoundR"⟩,
  ⟨.li, "LI", "Li"⟩,
  ⟨.lk, "LK", "Lk"⟩,
  ⟨.lkf, "LKF", "Lkf"⟩,
  ⟨.lks, "LKS", "Lks"⟩,
  ⟨.lkp, "LKP", "Lkp"⟩,
  ⟨.load .i8 .konst, "LB", "Lb"⟩,
  ⟨.load .i8 .register, "LB_R", "LbR"⟩,
  ⟨.load .u8 .konst, "LBU", "Lbu"⟩,
  ⟨.load .u8 .register, "LBU_R", "LbuR"⟩,
  ⟨.load .i16 .konst, "LH", "Lh"⟩,
  ⟨.load .i16 .register, "LH_R", "LhR"⟩,
  ⟨.load .u16 .konst, "LHU", "Lhu"⟩,
  ⟨.load .u16 .register, "LHU_R", "LhuR"⟩,
  ⟨.load .i32 .konst, "LW", "Lw"⟩,
  ⟨.load .i32 .register, "LW_R", "LwR"⟩,
  ⟨.load .f32 .konst, "LSP", "Lsp"⟩,
  ⟨.load .f32 .register, "LSP_R", "LspR"⟩,
  ⟨.load .f64 .konst, "LDP", "Ldp"⟩,
  ⟨.load .f64 .register, "LDP_R", "LdpR"⟩,
  ⟨.load .ptr .konst, "LP", "Lp"⟩,
  ⟨.load .ptr .register, "LP_R", "LpR"⟩,
  ⟨.store .i8 .konst, "SB", "Sb"⟩,
  ⟨.store .i8 .register, "SB_R", "SbR"⟩,
  ⟨.store .i16 .konst, "SH", "Sh"⟩,
  ⟨.store .i16 .register, "SH_R", "ShR"⟩,
  ⟨.store .i32 .konst, "SW", "Sw"⟩,
  ⟨.store .i32 .register, "SW_R", "SwR"⟩,
  ⟨.store .f32 .konst, "SSP", "Ssp"⟩,
  ⟨.store .f32 .register, "SSP_R", "SspR"⟩,
  ⟨.store .f64 .konst, "SDP", "Sdp"⟩,
  ⟨.store .f64 .register, "SDP_R", "SdpR"⟩,
  ⟨.store .ptr .konst, "SP", "Sp"⟩,
  ⟨.store .ptr .register, "SP_R", "SpR"⟩,
  ⟨.mov, "MOV", "Mov"⟩,
  ⟨.movf, "MOVF", "Movf"⟩,
  ⟨.movs, "MOVS", "Movs"⟩,
  ⟨.mova, "MOVA", "Mova"⟩,
  ⟨.cast, "CAST", "Cast"⟩,
  ⟨.param, "PARAM", "Param"⟩,
  ⟨.parami, "PARAMI", "ParamI"⟩,
  ⟨.call, "CALL", "Call"⟩,
  ⟨.callK, "CALL_K", "CallK"⟩,
  ⟨.result, "RESULT", "Result"⟩,
  ⟨.new, "NEW", "New"⟩,
  ⟨.newK, "NEW_K", "NewK"⟩,
  ⟨.concat, "CONCAT", "Concat"⟩,
  ⟨.lens, "LENS", "Lens"⟩,
  ⟨.cmps, "CMPS", "Cmps"⟩,
  ⟨.intOp .shl .rr, "SLL_RR", "SllRR"⟩,
  ⟨.intOp .shl .ri, "SLL_RI", "SllRI"⟩,
  ⟨.intOp .shl .kr, "SLL_KR", "SllKR"⟩,
  ⟨.intOp .shr .rr, "SRL_RR", "SrlRR"⟩,
  ⟨.intOp .shr .ri, "SRL_RI", "SrlRI"⟩,
  ⟨.intOp .shr .kr, "SRL_KR", "SrlKR"⟩,
  ⟨.intOp .sar .rr, "SRA_RR", "SraRR"⟩,
  ⟨.intOp .sar .ri, "SRA_RI", "SraRI"⟩,
  ⟨.intOp .sar .kr, "SRA_KR", "SraKR"⟩,
  ⟨.intOp .add .rr, "ADD_RR", "AddRR"⟩,
  ⟨.intOp .add .rk, "ADD_RK", "AddRK"⟩,
  ⟨.intOp .add .ri, "ADDI", "AddI"⟩,
  ⟨.intOp .sub .rr, "SUB_RR", "SubRR"⟩,
  ⟨.intOp .sub .rk, "SUB_RK", "SubRK"⟩,
  ⟨.intOp .sub .kr, "SUB_KR", "SubKR"⟩,
  ⟨.intOp .mul .rr, "MUL_RR", "MulRR"⟩,
  ⟨.intOp .mul .rk, "MUL_RK", "MulRK"⟩,
  ⟨.intOp .div .rr, "DIV_RR", "DivRR"⟩,
  ⟨.intOp .div .rk, "DIV_RK", "DivRK"⟩,
  ⟨.intOp .div .kr, "DIV_KR", "DivKR"⟩,
  ⟨.intOp .divu .rr, "DIVU_RR", "DivuRR"⟩,
  ⟨.intOp .divu .rk, "DIVU_RK", "DivuRK"⟩,
  ⟨.intOp .divu .kr, "DIVU_KR", "DivuKR"⟩,
  ⟨.intOp .mod .rr, "MOD_RR", "ModRR"⟩,
  ⟨.intOp .mod .rk, "MOD_RK", "ModRK"⟩,
  ⟨.intOp .mod .kr, "MOD_KR", "ModKR"⟩,
  ⟨.intOp .modu .rr, "MODU_RR", "ModuRR"⟩,
  ⟨.intOp .modu .rk, "MODU_RK", "ModuRK"⟩,
  ⟨.intOp .modu .kr, "MODU_KR", "ModuKR"⟩,
  ⟨.intOp .and .rr, "AND_RR", "AndRR"⟩,
  ⟨.intOp .and .rk, "AND_RK", "AndRK"⟩,
  ⟨.intOp .or .rr, "OR_RR", "OrRR"⟩,
  ⟨.intOp .or .rk, "OR_RK", "OrRK"⟩,
  ⟨.intOp .xor .rr, "XOR_RR", "XorRR"⟩,
  ⟨.intOp .xor .rk, "XOR_RK", "XorRK"⟩,
  ⟨.intOp .min .rr, "MIN_RR", "MinRR"⟩,
  ⟨.intOp .min .rk, "MIN_RK", "MinRK"⟩,
  ⟨.intOp .max .rr, "MAX_RR", "MaxRR"⟩,
  ⟨.intOp .max .rk, "MAX_RK", "MaxRK"⟩,
  ⟨.abs, "ABS", "Abs"⟩,
  ⟨.neg, "NEG", "Neg"⟩,
  ⟨.not, "NOT", "Not"⟩,
  ⟨.sext, "SEXT", "Sext"⟩,
  ⟨.intCmp .eq .rr, "EQ_R", "EqR"⟩,
  ⟨.intCmp .eq .rk, "EQ_K", "EqK"⟩,
  ⟨.intCmp .lt .rr, "LT_RR", "LtRR"⟩,
  ⟨.intCmp .lt .rk, "LT_RK", "LtRK"⟩,
  ⟨.intCmp .lt .kr, "LT_KR", "LtKR"⟩,
  ⟨.intCmp .le .rr, "LE_RR", "LeRR"⟩,
  ⟨.intCmp .le .rk, "LE_RK", "LeRK"⟩,
  ⟨.intCmp .le .kr, "LE_KR", "LeKR"⟩,
  ⟨.intCmp .ltu .rr, "LTU_RR", "LtuRR"⟩,
  ⟨.intCmp .ltu .rk, "LTU_RK", "LtuRK"⟩,
  ⟨.intCmp .ltu .kr, "LTU_KR", "LtuKR"⟩,
  ⟨.intCmp .leu .rr, "LEU_RR", "LeuRR"⟩,
  ⟨.intCmp .leu .rk, "LEU_RK", "LeuRK"⟩,
  ⟨.intCmp .leu .kr, "LEU_KR", "LeuKR"⟩,
  ⟨.floatOp .add .rr, "ADDF_RR", "AddfRR"⟩,
  ⟨.floatOp .add .rk, "ADDF_RK", "AddfRK"⟩,
  ⟨.floatOp .sub .rr, "SUBF_RR", "SubfRR"⟩,
  ⟨.floatOp .sub .rk, "SUBF_RK", "SubfRK"⟩,
  ⟨.floatOp .sub .kr, "SUBF_KR", "SubfKR"⟩,
  ⟨.floatOp .mul .rr, "MULF_RR", "MulfRR"⟩,
  ⟨.floatOp .mul .rk, "MULF_RK", "MulfRK"⟩,
  ⟨.floatOp .div .rr, "DIVF_RR", "DivfRR"⟩,
  ⟨.floatOp .div .rk, "DIVF_RK", "DivfRK"⟩,
  ⟨.floatOp .div .kr, "DIVF_KR", "DivfKR"⟩,
  ⟨.floatOp .mod .rr, "MODF_RR", "ModfRR"⟩,
  ⟨.floatOp .mod .rk, "MODF_RK", "ModfRK"⟩,
  ⟨.floatOp .mod .kr, "MODF_KR", "ModfKR"⟩,
  ⟨.floatOp .pow .rr, "POWF_RR", "PowfRR"⟩,
  ⟨.floatOp .pow .rk, "POWF_RK", "PowfRK"⟩,
  ⟨.floatOp .pow .kr, "POWF_KR", "PowfKR"⟩,
  ⟨.floatOp .min .rr, "MINF_RR", "MinfRR"⟩,
  ⟨.floatOp .min .rk, "MINF_RK", "MinfRK"⟩,
  ⟨.floatOp .max .rr, "MAXF_RR", "MaxfRR"⟩,
  ⟨.floatOp .max .rk, "MAXF_RK", "MaxfRK"⟩,
  ⟨.floatOp .atan2 .rr, "ATAN2", "Atan2"⟩,
  ⟨.flop, "FLOP", "Flop"⟩,
  ⟨.floatCmp .eq .rr, "EQF_R", "EqfR"⟩,
  ⟨.floatCmp .eq .rk, "EQF_K", "EqfK"⟩,
  ⟨.floatCmp .lt .rr, "LTF_RR", "LtfRR"⟩,
  ⟨.floatCmp .lt .rk, "LTF_RK", "LtfRK"⟩,
  ⟨.floatCmp .lt .kr, "LTF_KR", "LtfKR"⟩,
  ⟨.floatCmp .le .rr, "LEF_RR", "LefRR"⟩,
  ⟨.floatCmp .le .rk, "LEF_RK", "LefRK"⟩,
  ⟨.floatCmp .le .kr, "LEF_KR", "LefKR"⟩,
  ⟨.addaRR, "ADDA_RR", "AddaRR"⟩,
  ⟨.addaRK, "ADDA_RK", "AddaRK"⟩,
  ⟨.suba, "SUBA", "Suba"⟩,
  ⟨.eqaR, "EQA_R", "EqaR"⟩,
  ⟨.eqaK, "EQA_K", "EqaK"⟩]

/-- Number of encoded operations. -/
def count : Nat := table.size

/-- The table row of an opcode byte, if the byte is assigned. -/
def row? (byte : UInt8) : Option Row := table[byte.toNat]?

/-- The operation that an opcode byte stands for, if the byte is assigned. -/
def ofByte? (byte : UInt8) : Option Opcode := (row? byte).map (·.opcode)

/-- The opcode byte of an operation. -/
def byte (op : Opcode) : UInt8 := UInt8.ofNat (table.findIdx (·.opcode == op))

/-- The opcode byte that a mnemonic stands for. -/
def byteOfMnemonic? (mnemonic : String) : Option UInt8 :=
  (table.findIdx? (·.mnemonic == mnemonic)).map UInt8.ofNat

/-- The immediate operand in the last byte of an instruction: signed for the addition of an
immediate, unsigned everywhere else. -/
def immediate (op : Opcode) (c : UInt8) : Int32 :=
  if op = .intOp .add .ri then c.toInt8.toInt32 else c.toUInt32.toInt32

/-- The operations that compare and skip the next instruction. -/
def isCompare : Opcode → Bool
  | .intCmp .. | .floatCmp .. | .cmps | .eqaR | .eqaK => true
  | _ => false

/-- The operations whose successor may be the instruction after the next one. -/
def skips : Opcode → Bool
  | .test | .testn => true
  | op => op.isCompare

end Opcode

end TierVm
