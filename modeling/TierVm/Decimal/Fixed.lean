import TierVm.Decimal.Binary64

/-!
# Fixed-point text of doubles

The exact value rounded to a number of places, a half to the even neighbour, written positionally.
The sign is kept, also of a value that rounds to zero.
-/

namespace TierVm.Decimal

/-- `significand * 2 ^ exponent * 10 ^ places`, rounded to an integer. -/
def scaled (significand : Nat) (exponent : Int) (places : Nat) : Nat :=
  match exponent with
  | .ofNat e => (significand <<< e) * pow10 places
  | .negSucc e => divRound (significand * pow10 places) (1 <<< (e + 1))

/-- The digits of a number of units of `10 ^ -places`, with a point in front of the last
`places`. -/
def pointed (units places : Nat) : String :=
  let ds := Nat.toDigits 10 units
  let ds := List.replicate (places + 1 - ds.length) '0' ++ ds
  let whole := ds.length - places
  if places = 0 then String.ofList ds
  else String.ofList (ds.take whole ++ '.' :: ds.drop whole)

/-- Text of a double with a fixed number of places. -/
def fixed (places : Nat) (x : Float) : String :=
  match Exact.of x with
  | .nan => "NaN"
  | .infinite negative => signed negative "inf"
  | .finite negative m q => signed negative (pointed (scaled m q places) places)

end TierVm.Decimal
