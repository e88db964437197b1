/-!
# Code memory

All compiled code lives in one shared region of executable memory.  It is created when somebody
asks for it and nobody holds it, and released when its last holder is gone.
-/

namespace TierVm

/-- How hard the compiler tries. -/
inductive OptLevel where
  | none
  | speed
  | speedAndSize
  deriving DecidableEq, Repr, Inhabited

/-- The shared code memory: its holders, how often it was created, and the level it was created
with. -/
structure CodeMemory where
  holders : Nat := 0
  created : Nat := 0
  level : OptLevel := .speed
  deriving DecidableEq, Repr, Inhabited

namespace CodeMemory

/-- Number of live code memories. -/
def live (m : CodeMemory) : Nat := if m.holders = 0 then 0 else 1

/-- Become a holder, creating the memory if nobody holds it. -/
def acquire (m : CodeMemory) (level : OptLevel) : CodeMemory :=
  if m.holders = 0 then { holders := 1, created := m.created + 1, level }
  else { m with holders := m.holders + 1 }

/-- More holders of a memory that is held. -/
def retain (m : CodeMemory) (n : Nat) : CodeMemory := { m with holders := m.holders + n }

/-- Holders let go. -/
def release (m : CodeMemory) (n : Nat) : CodeMemory := { m with holders := m.holders - n }

end CodeMemory

end TierVm
