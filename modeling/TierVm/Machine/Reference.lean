import TierVm.Machine.Memory

/-!
# Names for addresses

Function objects have addresses of their own, apart from memory.  A `Reference` names an address
by the function or block that it points into.
-/

namespace TierVm

/-- Address of the first function object. -/
def functionOrigin : Nat := 0xb3d71a59c402740

/-- Distance between the addresses of function objects, too long for a 32-bit offset. -/
def functionStride : Nat := 1 <<< 33

/-- Address of a function object. -/
def functionAddress (id : FunctionId) : Address :=
  UInt64.ofNat (functionOrigin + functionStride * id)

/-- The function object at an address, among the first `count`. -/
def functionAt? : Nat → Address → Option FunctionId
  | 0, _ => none
  | count + 1, p => if functionAddress count = p then some count else functionAt? count p

/-- An address by what it points into. -/
inductive Reference where
  | null
  | raw (value : UInt64)
  | function (id : FunctionId)
  | buffer (index offset : Nat)
  | object (index offset : Nat)
  deriving DecidableEq, Repr, Inhabited

namespace Reference

/-- Where a block of a region starts; a block that does not exist is taken to start at zero. -/
def baseIn (r : Region) (i : Nat) : Nat := if i < r.blocks.size then r.base i else 0

/-- The address that a reference names. -/
def resolve (m : Memory) : Reference → Address
  | .null => 0
  | .raw v => v
  | .function id => functionAddress id
  | .buffer i offset => UInt64.ofNat (baseIn m.buffers i + offset)
  | .object i offset => UInt64.ofNat (baseIn m.objects i + offset)

/-- Name an address: a function, a place in a block or at its end, or else a bare number. -/
def of (m : Memory) (functions : Nat) (p : Address) : Reference :=
  if p = 0 then .null
  else
    match functionAt? functions p with
    | some id => .function id
    | none =>
      match m.buffers.find? p.toNat 0 with
      | some (i, offset) => .buffer i offset
      | none =>
        match m.objects.find? p.toNat 0 with
        | some (i, offset) => .object i offset
        | none => .raw p

end Reference

end TierVm
