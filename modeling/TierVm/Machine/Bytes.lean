import TierVm.Code.Opcode
import TierVm.Machine.Value

/-!
# Values as bytes

Words are stored lowest byte first.  `Width.encode` gives the bytes that a store writes and
`Width.decode` the value that a load reads.
-/

namespace TierVm

/-- The `count` low bytes of a number, lowest first. -/
def littleEndian : Nat → Nat → List UInt8
  | 0, _ => []
  | count + 1, n => UInt8.ofNat n :: littleEndian count (n / 256)

/-- The number that bytes stand for, lowest first. -/
def ofLittleEndian : List UInt8 → Nat
  | [] => 0
  | b :: rest => b.toNat + 256 * ofLittleEndian rest

/-- The value that the bytes of a memory access stand for. -/
def Width.decode (w : Width) (bytes : List UInt8) : Value :=
  let n := ofLittleEndian bytes
  match w with
  | .i8 => .int (UInt8.ofNat n).toInt8.toInt32
  | .u8 => .int (UInt8.ofNat n).toUInt32.toInt32
  | .i16 => .int (UInt16.ofNat n).toInt16.toInt32
  | .u16 => .int (UInt16.ofNat n).toUInt32.toInt32
  | .i32 => .int (UInt32.ofNat n).toInt32
  | .f32 => .float (Float32.ofBits (UInt32.ofNat n)).toFloat
  | .f64 => .float (Float.ofBits (UInt64.ofNat n))
  | .ptr => .pointer (UInt64.ofNat n)

/-- The bytes that a memory access stores for a value; the low-order ones of an integer. -/
def Width.encode (w : Width) : Value → List UInt8
  | .int x => littleEndian w.size x.toUInt32.toNat
  | .float x =>
    match w with
    | .f32 => littleEndian w.size x.toFloat32.toBits.toNat
    | _ => littleEndian w.size x.toBits.toNat
  | .pointer p => littleEndian w.size p.toNat
  | .string _ => []

end TierVm
