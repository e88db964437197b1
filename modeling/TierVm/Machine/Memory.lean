import Std.Data.TreeMap
import TierVm.Machine.Value

/-!
# Memory

Memory is a set of blocks in a 64-bit address space: buffers that exist from the start and
objects that a script allocates.  Objects live until the heap is reset.  Where a block lies is of
no consequence to a program beyond the distance between addresses inside one block.  A `Region`
places its blocks at equal distances, so that an address tells its block, and an address is never
used again.

* `Memory.read?` and `Memory.write?` give no result unless the whole access lies in one block.
* `Memory.alloc` refuses sizes that are negative or too large.
-/

namespace TierVm

/-! ## Blocks -/

/-- A run of bytes.  Bytes that were never written are zero. -/
structure Block where
  size : Nat
  written : Std.TreeMap Nat UInt8 := {}
  deriving Inhabited

namespace Block

/-- The byte at an offset. -/
def byte (b : Block) (offset : Nat) : UInt8 := b.written.getD offset 0

/-- Replace the byte at an offset. -/
def setByte (b : Block) (offset : Nat) (v : UInt8) : Block :=
  { b with written := b.written.insert offset v }

/-- The `count` bytes from an offset on. -/
def slice (b : Block) (offset count : Nat) : List UInt8 :=
  (List.range count).map fun i => b.byte (offset + i)

/-- Replace the bytes from an offset on. -/
def setSlice (b : Block) (offset : Nat) : List UInt8 → Block
  | [] => b
  | v :: rest => (b.setByte offset v).setSlice (offset + 1) rest

/-- The block with the given contents. -/
def ofBytes (bytes : List UInt8) : Block := { size := bytes.length : Block }.setSlice 0 bytes

/-- The contents of a block, up to a number of bytes. -/
def toList (b : Block) (limit : Nat) : List UInt8 := b.slice 0 (min b.size limit)

end Block

/-! ## Regions -/

/-- Blocks at equal distances: block `i` starts at `origin + i * stride`. -/
structure Region where
  origin : Nat
  stride : Nat
  blocks : Array Block := #[]
  deriving Inhabited

namespace Region

/-- Where a block starts. -/
def base (r : Region) (i : Nat) : Nat := r.origin + i * r.stride

/-- Block and offset of `count` bytes from an address on, if they lie in one block. -/
def find? (r : Region) (p count : Nat) : Option (Nat × Nat) :=
  if p < r.origin then none
  else
    let i := (p - r.origin) / r.stride
    let offset := (p - r.origin) % r.stride
    match r.blocks[i]? with
    | some b => if offset + count ≤ b.size then some (i, offset) else none
    | none => none

/-- The `count` bytes at an address, if they lie in one block. -/
def read? (r : Region) (p count : Nat) : Option (List UInt8) :=
  (r.find? p count).bind fun (i, offset) => (r.blocks[i]?).map (·.slice offset count)

/-- Replace bytes of a block. -/
def write (r : Region) (i offset : Nat) (bytes : List UInt8) : Region :=
  { r with blocks := r.blocks.modify i (·.setSlice offset bytes) }

/-- Add a block. -/
def push (r : Region) (b : Block) : Region := { r with blocks := r.blocks.push b }

/-- The region without its blocks, whose places are not used again. -/
def clear (r : Region) : Region := { r with origin := r.base r.blocks.size, blocks := #[] }

end Region

/-! ## Memory -/

/-- Largest size of one object. -/
def maxAllocSize : Int32 := 16777216

/-- The live blocks and the bytes held by objects.  The origins are no round numbers, lest a number
that a program works out by itself be the address of a block, and no 32-bit offset leads from one
block to another. -/
structure Memory where
  buffers : Region := { origin := 0x3a5f1c926e80, stride := 1 <<< 40 }
  objects : Region := { origin := 0x1b873c6ef372fe90, stride := 1 <<< 33 }
  allocated : Nat := 0
  deriving Inhabited

namespace Memory

/-- A memory of buffers without objects. -/
def ofBuffers (contents : List (List UInt8)) : Memory :=
  { buffers := contents.foldl (fun r bytes => r.push (.ofBytes bytes)) ({} : Memory).buffers }

/-- The `count` bytes at an address, if they lie in one block. -/
def read? (m : Memory) (p : Address) (count : Nat) : Option (List UInt8) :=
  match m.buffers.read? p.toNat count with
  | some bytes => some bytes
  | none => m.objects.read? p.toNat count

/-- Replace the bytes at an address, if they lie in one block. -/
def write? (m : Memory) (p : Address) (bytes : List UInt8) : Option Memory :=
  match m.buffers.find? p.toNat bytes.length with
  | some (i, offset) => some { m with buffers := m.buffers.write i offset bytes }
  | none =>
    match m.objects.find? p.toNat bytes.length with
    | some (i, offset) => some { m with objects := m.objects.write i offset bytes }
    | none => none

/-- Bytes that an object of a requested size occupies: one at least.  Sizes that are negative or
too large are refused. -/
def objectSize? (size : Int32) : Option Nat :=
  if size < 0 ∨ maxAllocSize < size then none else some (max size.toInt.toNat 1)

/-- End of the range in which objects are placed. -/
def addressLimit : Nat := 1 <<< 62

/-- Add a zeroed object of `size` bytes. -/
def place (m : Memory) (size : Nat) : Except Stop (Address × Memory) :=
  let base := m.objects.base m.objects.blocks.size
  if addressLimit < base + size then .error .outOfMemory
  else
    .ok (UInt64.ofNat base,
      { m with objects := m.objects.push { size }, allocated := m.allocated + size })

/-- Allocate a zeroed object of a requested size. -/
def alloc (m : Memory) (size : Int32) : Except Trap (Address × Memory) :=
  match objectSize? size with
  | none => .error (.abort { reason := .arrayTooLarge, arg := size })
  | some bytes =>
    match m.place bytes with
    | .ok r => .ok r
    | .error s => .error (.stop s)

/-- Release all objects. -/
def reset (m : Memory) : Memory := { m with objects := m.objects.clear, allocated := 0 }

end Memory

end TierVm
