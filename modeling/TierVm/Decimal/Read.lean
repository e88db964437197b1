import TierVm.Text.Integer

/-!
# Reading doubles

A double is written as an optional sign and either a word for infinity or not-a-number, in any
case, or digits with at most one point, at least one digit, and an optional exponent.  The value
is the double nearest to the number written.

Neither many digits nor a long exponent make reading slow.  A number half way between two doubles
has fewer than `keptDigits` digits, so of the digits behind those it only matters whether they are
all zero.  The digits of an exponent count until its value reaches `exponentBound`.
-/

namespace TierVm.Decimal

open TierVm.Text

/-- An unsigned decimal number `units * 10 ^ exponent`. -/
structure Scientific where
  units : Nat
  exponent : Int
  deriving DecidableEq, Repr

/-! ## Exponents -/

/-- Once an exponent has reached this value, its further digits are ignored. -/
def exponentBound : Nat := 65536

/-- The value of the digits of an exponent. -/
def exponentValue (cs : List Char) : Nat :=
  cs.foldl (fun e c => if e < exponentBound then 10 * e + digitValue c else e) 0

/-- Read an exponent: nothing, or a mark, an optional sign and digits. -/
def readExponent? : List Char → Option Int
  | [] => some 0
  | c :: rest =>
    if c = 'e' ∨ c = 'E' then
      let (negative, ds) := splitSign rest
      if ds.isEmpty || !ds.all Char.isDigit then none
      else some (if negative then -(exponentValue ds : Int) else exponentValue ds)
    else none

/-! ## Digits -/

/-- Digits of a number that are read one by one. -/
def keptDigits : Nat := 800

/-- The number with the given digits in front of a power of ten.  Behind the digits that are kept,
one more tells whether the rest is zero. -/
def Scientific.ofDigits (ds : List Char) (exponent : Int) : Scientific :=
  let ds := ds.dropWhile (· == '0')
  let kept := readDigits 0 (ds.take keptDigits)
  match ds.drop keptDigits with
  | [] => ⟨kept, exponent⟩
  | rest => ⟨10 * kept + (if rest.all (· == '0') then 0 else 1), exponent + rest.length - 1⟩

/-- Read an unsigned decimal number. -/
def readScientific? (cs : List Char) : Option Scientific :=
  let whole := cs.takeWhile Char.isDigit
  let rest := cs.dropWhile Char.isDigit
  let (fraction, rest) :=
    match rest with
    | '.' :: tail => (tail.takeWhile Char.isDigit, tail.dropWhile Char.isDigit)
    | _ => ([], rest)
  if whole.isEmpty && fraction.isEmpty then none
  else
    (readExponent? rest).map fun e => .ofDigits (whole ++ fraction) (e - fraction.length)

/-! ## Values -/

/-- The double nearest to a decimal number.  Numbers beyond the range of doubles are settled by
their magnitude alone. -/
def Scientific.toFloat (s : Scientific) : Float :=
  let top := s.exponent + (Nat.toDigits 10 s.units).length
  if s.units = 0 ∨ top < -330 then 0
  else if 310 < top then 1 / 0
  else
    match s.exponent with
    | .ofNat e => Float.ofScientific s.units false e
    | .negSucc e => Float.ofScientific s.units true (e + 1)

/-- Read a number without its sign. -/
def readUnsigned? (cs : List Char) : Option Float :=
  let word := (cs.take 9).map Char.toLower
  if word = "inf".toList ∨ word = "infinity".toList then some (1 / 0)
  else if word = "nan".toList then some (0 / 0)
  else (readScientific? cs).map Scientific.toFloat

/-- The double that a text stands for. -/
def read? (cs : List Char) : Option Float :=
  let (negative, rest) := splitSign cs
  (readUnsigned? rest).map fun x => if negative then -x else x

end TierVm.Decimal
