import TierVm.Machine.Value

/-!
# Return slots and arguments

A callee writes its results into the slots of its caller.  Each slot leads to a cell; two slots
that name one register lead to one cell.  The class of a slot is that of the value in its cell.

A string argument is passed by reference.  When the register it stands for is also one of the
call's results, a native callee that writes the result sees the argument change.
-/

namespace TierVm

/-- The slots in which a callee leaves its results. -/
structure ReturnSlots where
  cells : Array Value := #[]
  /-- The cell of each slot. -/
  cellOf : Array Nat := #[]
  /-- Every slot leads to a cell that exists. -/
  cellOf_lt : ∀ k ∈ cellOf, k < cells.size := by simp

instance : Inhabited ReturnSlots := ⟨{}⟩

namespace ReturnSlots

/-- Fresh slots of the given classes, each with a cell of its own. -/
def fresh (classes : List RegClass) : ReturnSlots where
  cells := (classes.map Value.zero).toArray
  cellOf := Array.range classes.length
  cellOf_lt := by simp

/-- Slots that lead to the given cells, if these exist. -/
def link? (cells : List Value) (cellOf : List Nat) : Option ReturnSlots :=
  if h : ∀ k ∈ cellOf, k < cells.length then
    some { cells := cells.toArray, cellOf := cellOf.toArray, cellOf_lt := by simpa using h }
  else none

/-- Number of slots. -/
def size (r : ReturnSlots) : Nat := r.cellOf.size

/-- The value in a slot. -/
def get? (r : ReturnSlots) (i : Nat) : Option Value := (r.cellOf[i]?).bind (r.cells[·]?)

/-- The class of a slot. -/
def class? (r : ReturnSlots) (i : Nat) : Option RegClass := (r.get? i).map (·.regClass)

/-- The values in all slots, in order. -/
def toList (r : ReturnSlots) : List Value := (List.range r.size).filterMap r.get?

/-- Replace the value in a slot. -/
def set (r : ReturnSlots) (i : Nat) (v : Value) : ReturnSlots :=
  match r.cellOf[i]? with
  | some k =>
    { r with
      cells := r.cells.setIfInBounds k v
      cellOf_lt := by simpa using r.cellOf_lt }
  | none => r

/-- Write a result.  A slot that the caller did not ask for is ignored; a slot of another class is
refused with the class it expects. -/
def write (r : ReturnSlots) (i : Nat) (v : Value) : Except RegClass ReturnSlots :=
  match r.class? i with
  | none => .ok r
  | some cls => if cls = v.regClass then .ok (r.set i v) else .error cls

end ReturnSlots

/-- An argument: its value at the call, and the result cell it shares its register with. -/
structure Argument where
  value : Value
  cell : Option Nat := none
  deriving Inhabited

/-- What a native callee sees in an argument at a moment of the call. -/
def Argument.current (a : Argument) (slots : ReturnSlots) : Value :=
  match a.cell with
  | none => a.value
  | some k => slots.cells.getD k a.value

end TierVm
