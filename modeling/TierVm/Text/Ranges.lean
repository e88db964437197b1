/-!
# Tables of ranges

Properties of characters are tables of ranges of code points in ascending order.  A look-up halves
the part of the table that can still hold the code point.
-/

namespace TierVm.Text

/-- The row, among those from index `lo` to before `hi`, whose range holds a number.  `bounds`
gives the first and the last number of a row; `fuel` bounds the halvings. -/
def searchRow {α : Type} (bounds : α → Nat × Nat) (rows : Array α) (n : Nat) :
    Nat → Nat → Nat → Option α
  | 0, _, _ => none
  | fuel + 1, lo, hi =>
    if hi ≤ lo then none
    else
      let mid := (lo + hi) / 2
      match rows[mid]? with
      | none => none
      | some row =>
        let (first, last) := bounds row
        if n < first then searchRow bounds rows n fuel lo mid
        else if last < n then searchRow bounds rows n fuel (mid + 1) hi
        else some row

/-- The row of a table in ascending order whose range holds a number. -/
def rowOf? {α : Type} (bounds : α → Nat × Nat) (rows : Array α) (n : Nat) : Option α :=
  searchRow bounds rows n rows.size 0 rows.size

/-- Whether a character lies in one of the ranges of a table in ascending order. -/
def inRanges (ranges : Array (Nat × Nat)) (c : Char) : Bool := (rowOf? id ranges c.toNat).isSome

end TierVm.Text
