import TierVm.Code.Operand

/-!
# Arithmetic on doubles

Division and remainder by a zero of either sign are refused.  The remainder is floored: it takes
the sign of the divisor.  Minimum and maximum give the right operand when the two are unordered.
-/

namespace TierVm

/-- The floored remainder. -/
def floorMod (l r : Float) : Float := l - (l / r).floor * r

/-- The number pi. -/
def pi : Float := 3.141592653589793

/-- An angle in degrees. -/
def toDegrees (x : Float) : Float := x * (180 / pi)

/-- An angle in radians. -/
def toRadians (x : Float) : Float := x * (pi / 180)

/-- The value of a binary operation; none for a division by zero. -/
def FloatOp.eval (op : FloatOp) (l r : Float) : Option Float :=
  match op with
  | .add => some (l + r)
  | .sub => some (l - r)
  | .mul => some (l * r)
  | .div => if r == 0 then none else some (l / r)
  | .mod => if r == 0 then none else some (floorMod l r)
  | .pow => some (l.pow r)
  | .min => some (if l < r then l else r)
  | .max => some (if l > r then l else r)
  | .atan2 => some (toDegrees (Float.atan2 l r))

/-- Tolerance of approximate equality. -/
def tolerance : Float := 1 / 65536

/-- The outcome of a comparison; only equality can be approximate. -/
def FloatCmp.eval (cmp : FloatCmp) (approx : Bool) (l r : Float) : Bool :=
  match cmp with
  | .eq => if approx then decide ((l - r).abs < tolerance) else l == r
  | .lt => decide (l < r)
  | .le => decide (l ≤ r)

/-- Unary operations on doubles.  Those named `Deg` measure angles in degrees. -/
inductive UnaryFloat where
  | abs | neg | exp | log | log10 | sqrt | ceil | floor
  | acos | asin | atan | cos | sin | tan
  | acosDeg | asinDeg | atanDeg | cosDeg | sinDeg | tanDeg
  | cosh | sinh | tanh | round
  deriving DecidableEq, Repr, Inhabited

namespace UnaryFloat

/-- The operations in the order of their codes. -/
def all : Array UnaryFloat := #[
  .abs, .neg, .exp, .log, .log10, .sqrt, .ceil, .floor,
  .acos, .asin, .atan, .cos, .sin, .tan,
  .acosDeg, .asinDeg, .atanDeg, .cosDeg, .sinDeg, .tanDeg,
  .cosh, .sinh, .tanh, .round]

/-- The value of an operation. -/
def eval (op : UnaryFloat) (x : Float) : Float :=
  match op with
  | .abs => x.abs
  | .neg => -x
  | .exp => x.exp
  | .log => x.log
  | .log10 => x.log10
  | .sqrt => x.sqrt
  | .ceil => x.ceil
  | .floor => x.floor
  | .acos => x.acos
  | .asin => x.asin
  | .atan => x.atan
  | .cos => x.cos
  | .sin => x.sin
  | .tan => x.tan
  | .acosDeg => toDegrees x.acos
  | .asinDeg => toDegrees x.asin
  | .atanDeg => toDegrees x.atan
  | .cosDeg => (toRadians x).cos
  | .sinDeg => (toRadians x).sin
  | .tanDeg => (toRadians x).tan
  | .cosh => x.cosh
  | .sinh => x.sinh
  | .tanh => x.tanh
  | .round => x.round

end UnaryFloat

/-- The unary operation with a code; codes without an operation give not-a-number. -/
def flop (code : UInt8) (x : Float) : Float :=
  match UnaryFloat.all[code.toNat]? with
  | some op => op.eval x
  | none => 0 / 0

end TierVm
