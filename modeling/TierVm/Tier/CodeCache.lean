import TierVm.Exec.Lowering

/-!
# The code cache

Compiled functions by number, within a budget for the sum of their sizes.  An entry that was
invalidated is no longer found, but keeps its place and its share of the budget until it is
replaced or the cache is cleared.
-/

namespace TierVm

/-- An entry of the cache. -/
structure CacheEntry where
  code : CompiledCode
  valid : Bool := true

/-- A cache of compiled functions. -/
structure CodeCache where
  entries : List (FunctionId × CacheEntry) := []
  /-- Sum of the sizes of all entries. -/
  total : Nat := 0
  limit : Nat

namespace CodeCache

/-- The entry of a function, valid or not. -/
def entry? (c : CodeCache) (id : FunctionId) : Option CacheEntry := c.entries.lookup id

/-- Insert code, in place of an earlier entry of the function, if the budget allows. -/
def insert (c : CodeCache) (id : FunctionId) (code : CompiledCode) :
    Except CompileError CodeCache :=
  let replaced := ((c.entry? id).map (·.code.size)).getD 0
  let current := c.total - replaced
  if c.limit < current + code.size then .error (.cacheFull current c.limit)
  else
    .ok
      { c with
        entries := (id, { code }) :: c.entries.filter (·.1 != id)
        total := current + code.size }

/-- The code of a function, unless it was invalidated. -/
def get? (c : CodeCache) (id : FunctionId) : Option CompiledCode :=
  match c.entry? id with
  | some e => if e.valid then some e.code else none
  | none => none

/-- Whether a function has valid code. -/
def contains (c : CodeCache) (id : FunctionId) : Bool := (c.get? id).isSome

/-- Make the entry of a function invalid. -/
def invalidate (c : CodeCache) (id : FunctionId) : CodeCache :=
  { c with
    entries := c.entries.map fun (k, e) =>
      if k = id then (k, { e with valid := false }) else (k, e) }

/-- Drop all entries. -/
def clear (c : CodeCache) : CodeCache := { c with entries := [], total := 0 }

/-- Number of entries, invalid ones included. -/
def count (c : CodeCache) : Nat := c.entries.length

end CodeCache

end TierVm
