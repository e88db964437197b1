import TierVm.Decimal.Binary64

/-!
# Shortest text of doubles

The fewest digits that read back as the same double, and of those the nearest to its value.  They
are written positionally, without an exponent and without a fraction that is zero.
-/

namespace TierVm.Decimal

/-- A number `num / den`. -/
structure Ratio where
  num : Nat
  den : Nat

/-- `n * 2 ^ e`. -/
def Ratio.scale2 (n : Nat) : Int → Ratio
  | .ofNat e => ⟨n <<< e, 1⟩
  | .negSucc e => ⟨n, 1 <<< (e + 1)⟩

/-- `r / 10 ^ e`. -/
def Ratio.shift10 (r : Ratio) : Int → Ratio
  | .ofNat e => ⟨r.num, r.den * pow10 e⟩
  | .negSucc e => ⟨r.num * pow10 (e + 1), r.den⟩

/-- The interval of reals that round to a double, and the double itself, as ratios. -/
structure Rounding where
  low : Ratio
  value : Ratio
  high : Ratio
  /-- Whether the ends of the interval belong to it. -/
  closed : Bool

/-- The rounding interval of `m * 2 ^ q`.  Below a power of two the neighbour is half as far. -/
def Rounding.of (m : Nat) (q : Int) : Rounding :=
  let below := if m = leadingBit ∧ q ≠ -1074 then 4 * m - 1 else 4 * m - 2
  ⟨.scale2 below (q - 2), .scale2 (4 * m) (q - 2), .scale2 (4 * m + 2) (q - 2), m % 2 = 0⟩

/-- Whether the integer `n` lies in the interval. -/
def Rounding.contains (r : Rounding) (n : Nat) : Bool :=
  if r.closed then r.low.num ≤ n * r.low.den && n * r.high.den ≤ r.high.num
  else r.low.num < n * r.low.den && n * r.high.den < r.high.num

/-- Divide a rounding interval by a power of ten. -/
def Rounding.shift10 (r : Rounding) (e : Int) : Rounding :=
  { r with low := r.low.shift10 e, value := r.value.shift10 e, high := r.high.shift10 e }

/-- The integer of the interval next to its value, if there is one; a tie goes up. -/
def Rounding.nearest? (r : Rounding) : Option Nat :=
  let down := r.value.num / r.value.den
  let rest := r.value.num % r.value.den
  match r.contains down, r.contains (down + 1) with
  | true, true => some (if 2 * rest < r.value.den then down else down + 1)
  | true, false => some down
  | false, true => some (down + 1)
  | false, false => none

/-- The least `e` with `r < 10 ^ e`, searched downwards from a bound. -/
def Ratio.magnitude (r : Ratio) : Nat → Int → Int
  | 0, e => e
  | fuel + 1, e =>
    let below := r.shift10 (e - 1)
    if below.num < below.den then r.magnitude fuel (e - 1) else e

/-- The first grid, from coarse to fine, that has a point in the interval: the point as a number
of units, and the power of ten of a unit. -/
def Rounding.search (r : Rounding) (top : Int) : Nat → Nat → Nat × Int
  | 0, _ => (0, 0)
  | fuel + 1, n =>
    match (r.shift10 (top - n)).nearest? with
    | some units => (units, top - n)
    | none => r.search top fuel (n + 1)

/-- Shortest digits of `m * 2 ^ q` for `m > 0`: a number of units and the power of ten of a unit. -/
def shortestDigits (m : Nat) (q : Int) : Nat × Int :=
  let r := Rounding.of m q
  r.search (r.value.magnitude 700 310) 20 1

/-- Digits in front of a power of ten, written positionally. -/
def positional (units : Nat) : Int → String
  | .ofNat e => String.ofList (Nat.toDigits 10 (units * pow10 e))
  | .negSucc e =>
    let places := e + 1
    let digits := Nat.toDigits 10 (units % pow10 places)
    let fraction := (digits.reverse.dropWhile (· == '0')).reverse
    let pad := List.replicate (places - digits.length) '0'
    let whole := Nat.toDigits 10 (units / pow10 places)
    if fraction.isEmpty then String.ofList whole
    else String.ofList (whole ++ '.' :: (pad ++ fraction))

/-- Shortest positional text of a double. -/
def shortest (x : Float) : String :=
  match Exact.of x with
  | .nan => "NaN"
  | .infinite negative => signed negative "inf"
  | .finite negative m q =>
    if m = 0 then signed negative "0"
    else
      let (units, e) := shortestDigits m q
      signed negative (positional units e)

end TierVm.Decimal
