/-!
# Profiles

Each script function has two counters, of calls and of backward jumps taken while interpreting,
and three flags about its compilation.  A `CompilationPolicy` decides from them when a function is
worth compiling.
-/

namespace TierVm

/-- How often a function was called, and how often it jumped backwards while interpreted. -/
structure Counters where
  calls : UInt32 := 0
  loops : UInt32 := 0
  deriving DecidableEq, Repr, Inhabited

namespace Counters

/-- Count a call; the counter wraps. -/
def recordCall (c : Counters) : Counters := { c with calls := c.calls + 1 }

/-- Count a backward jump; the counter wraps. -/
def recordLoop (c : Counters) : Counters := { c with loops := c.loops + 1 }

/-- The count to report for a counter that stood at `old` before an event; it saturates. -/
def reported (old : UInt32) : UInt32 := if old = 4294967295 then old else old + 1

end Counters

/-- What is known about the compilation of a function. -/
structure Flags where
  /-- Somebody is compiling the function. -/
  compiling : Bool := false
  /-- Compiled code was made. -/
  available : Bool := false
  /-- Compilation was tried and failed. -/
  failed : Bool := false
  deriving DecidableEq, Repr, Inhabited

namespace Flags

/-- Claim the function for compilation; whether nobody else had. -/
def tryStart (f : Flags) : Bool × Flags := (!f.compiling, { f with compiling := true })

/-- Compilation succeeded. -/
def finish (f : Flags) : Flags := { f with available := true, compiling := false }

/-- Compilation failed. -/
def fail (f : Flags) : Flags := { f with failed := true, compiling := false }

/-- Forget earlier compilations. -/
def forget (f : Flags) : Flags := { f with available := false, failed := false }

end Flags

/-- When to compile a function. -/
structure CompilationPolicy where
  callThreshold : UInt32 := 1000
  loopThreshold : UInt32 := 10000
  /-- Most instructions of a function that is compiled. -/
  maxFunctionSize : Nat := 4096
  deriving DecidableEq, Repr, Inhabited

/-- Whether a function of `size` instructions is worth compiling now. -/
def CompilationPolicy.shouldCompile (p : CompilationPolicy) (c : Counters) (f : Flags)
    (size : Nat) : Bool :=
  !f.available && !f.compiling && !f.failed && decide (size ≤ p.maxFunctionSize) &&
    (decide (p.callThreshold ≤ c.calls) || decide (p.loopThreshold ≤ c.loops))

end TierVm
