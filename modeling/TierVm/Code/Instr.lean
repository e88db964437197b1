import TierVm.Code.Opcode

/-!
# Instructions

An instruction is an opcode byte and three operand bytes.  Wider operands combine the bytes, low
byte first: `bc` has 16 bits, `abc` has 24 and is signed.
-/

namespace TierVm

/-- A four-byte instruction. -/
structure Instr where
  op : UInt8
  a : UInt8
  b : UInt8
  c : UInt8
  deriving DecidableEq, Repr, Inhabited

namespace Instr

/-- An instruction with three operand bytes. -/
def make (op : Opcode) (a b c : UInt8) : Instr := ⟨op.byte, a, b, c⟩

/-- An instruction with a byte operand and a 16-bit operand. -/
def withBc (op : UInt8) (a : UInt8) (bc : UInt16) : Instr :=
  ⟨op, a, bc.toUInt8, (bc >>> 8).toUInt8⟩

/-- An instruction with one 24-bit operand; the higher bits of `abc` are dropped. -/
def withAbc (op : UInt8) (abc : Int32) : Instr :=
  let raw := abc.toUInt32
  ⟨op, raw.toUInt8, (raw >>> 8).toUInt8, (raw >>> 16).toUInt8⟩

/-- The operation, if the opcode byte is assigned. -/
def opcode? (i : Instr) : Option Opcode := Opcode.ofByte? i.op

/-- The 16-bit operand, unsigned. -/
def bc (i : Instr) : UInt16 := i.b.toUInt16 ||| (i.c.toUInt16 <<< 8)

/-- The 16-bit operand, signed. -/
def bcSigned (i : Instr) : Int16 := i.bc.toInt16

/-- The 24-bit operand as an unsigned word. -/
def abcRaw (i : Instr) : UInt32 :=
  i.a.toUInt32 ||| (i.b.toUInt32 <<< 8) ||| (i.c.toUInt32 <<< 16)

/-- The 24-bit operand, sign-extended. -/
def abc (i : Instr) : Int32 := (i.abcRaw <<< 8).toInt32 >>> 8

/-- The four bytes in the order of their encoding. -/
def bytes (i : Instr) : List UInt8 := [i.op, i.a, i.b, i.c]

end Instr

end TierVm
