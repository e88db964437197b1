import TierVm.Code.Opcode

/-!
# Integer arithmetic

32-bit integers wrap.  Division truncates, the quotient of the least integer by minus one wraps to
itself, and shift counts are taken modulo 32.
-/

namespace TierVm

/-- The value of a binary operation; none for a division by zero. -/
def IntOp.eval (op : IntOp) (l r : Int32) : Option Int32 :=
  match op with
  | .add => some (l + r)
  | .sub => some (l - r)
  | .mul => some (l * r)
  | .div => if r = 0 then none else some (l / r)
  | .divu => if r = 0 then none else some (l.toUInt32 / r.toUInt32).toInt32
  | .mod => if r = 0 then none else some (l % r)
  | .modu => if r = 0 then none else some (l.toUInt32 % r.toUInt32).toInt32
  | .and => some (l &&& r)
  | .or => some (l ||| r)
  | .xor => some (l ^^^ r)
  | .shl => some (l <<< r)
  | .shr => some (l.toUInt32 >>> r.toUInt32).toInt32
  | .sar => some (l >>> r)
  | .min => some (if l < r then l else r)
  | .max => some (if l > r then l else r)

/-- The outcome of an integer comparison. -/
def IntCmp.eval (cmp : IntCmp) (l r : Int32) : Bool :=
  match cmp with
  | .eq => l == r
  | .lt => decide (l < r)
  | .le => decide (l ≤ r)
  | .ltu => decide (l.toUInt32 < r.toUInt32)
  | .leu => decide (l.toUInt32 ≤ r.toUInt32)

/-- Sign-extend the low `bits` bits.  The shift count is taken modulo 32, and from 32 bits on
nothing changes. -/
def signExtend (x : Int32) (bits : UInt8) : Int32 :=
  if 32 ≤ bits then x
  else
    let shift : Int32 := 32 - bits.toUInt32.toInt32
    (x <<< shift) >>> shift

/-- Absolute value; the least integer stays as it is. -/
def wrappingAbs (x : Int32) : Int32 := if x < 0 then -x else x

end TierVm
