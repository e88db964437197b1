import TierVm.Tier.Engine

/-!
# Sessions

A session holds a program, its memory and the state around it, and offers the operations of the
library on them: calls in every mode, engines, code that is kept, a code cache of its own, and
the heap.  Code that is compiled directly, not by an engine, stays to the end of the session.
-/

namespace TierVm

/-- The state of a session. -/
structure Session where
  program : Program
  memory : Memory
  ambient : Ambient Tier
  /-- The engine behind each handle that was given out and not dropped. -/
  handles : Array (Option Nat) := #[]
  /-- Whether the session holds the code memory. -/
  holdsCode : Bool := false
  /-- Code compiled directly. -/
  direct : List (FunctionId × CompiledCode) := []
  /-- Code kept from engines, by slot. -/
  kept : List (Nat × CompiledCode) := []
  cache : CodeCache := { limit := 0 }

/-- Operations of a session. -/
abbrev SessionM := StateT Session (Except Stop)

/-- What a call of a session shows. -/
structure CallReport where
  outcome : Outcome
  slots : ReturnSlots
  depth : Nat
  heap : Nat

namespace Session

/-- Bound on the steps of a run. -/
def fuel : Nat := 1099511627776

/-- Bytes that the code of a script takes in a session.  This stands in for a code generator: a part
for entry and exit, and for each instruction one that depends on its operation. -/
def codeSizeOf (s : Script) : Nat :=
  s.code.foldl (fun size i => size + (16 + i.op.toNat)) 64

/-- A function object with the size of its code. -/
def sized : Function → Function
  | .script s => .script { s.script with codeSize := codeSizeOf s.script }.load
  | .native n => .native n

/-- A new session. -/
def start (memory : Memory) (functions : Array Function) : Session where
  program := { functions := functions.map sized }
  memory := memory
  ambient :=
    { counters := Array.replicate functions.size {}
      tier := { flags := Array.replicate functions.size {} } }

/-- Name an address. -/
def reference (s : Session) (p : Address) : Reference := .of s.memory s.program.size p

/-- Change the state of the engines. -/
def modifyTier (f : Tier → Tier) : SessionM Unit :=
  modify fun s => { s with ambient := { s.ambient with tier := f s.ambient.tier } }

/-- Change the code memory. -/
def modifyCodeMemory (f : CodeMemory → CodeMemory) : SessionM Unit :=
  modifyTier fun t => { t with codeMemory := f t.codeMemory }

/-- The native calls since the last time they were taken. -/
def takeLog : SessionM (List NativeCall) := do
  let s ← get
  set { s with ambient := { s.ambient with log := #[] } }
  return s.ambient.log.toList

/-- The loaded script with a number. -/
def loaded (id : FunctionId) : SessionM LoadedScript := do
  match (← get).program.loaded? id with
  | some s => return s
  | none => throw .badIndex

/-- The script with a number. -/
def script (id : FunctionId) : SessionM Script := return (← loaded id).script

/-! ## Calls -/

/-- A way to call in a given state. -/
abbrev Runner := Program → List Argument → ReturnSlots → Memory → Ambient Tier →
  Except Stop (Result Tier)

/-- Run a call into the given slots. -/
def runInto (run : Runner) (args : List Value) (slots : ReturnSlots) : SessionM CallReport := do
  let s ← get
  let r ← run s.program (args.map ({ value := · })) slots s.memory s.ambient
  set { s with memory := r.memory, ambient := r.ambient }
  return ⟨r.outcome, r.slots, r.ambient.frames.depth, r.memory.allocated⟩

/-- How a session calls function objects. -/
def callWith (p : Program) : Invoke Tier := invoke p Tier.dispatcher fuel

/-- Interpret a script. -/
def interp (id : FunctionId) (args : List Value) (slots : ReturnSlots) : SessionM CallReport := do
  let s ← loaded id
  runInto (fun p => interpret p.size (callWith p) fuel id s) args slots

/-- Run compiled code. -/
def runCode (code : CompiledCode) (args : List Value) (slots : ReturnSlots) :
    SessionM CallReport := do
  let s ← script code.function
  runInto (fun p => runCompiled p.size (callWith p) fuel code.function s code.ops) args slots

/-- Call a function object without an engine. -/
def invokeFunction (id : FunctionId) (args : List Value) (slots : ReturnSlots) :
    SessionM CallReport :=
  runInto (fun p => callWith p id) args slots

/-! ## Direct compilation -/

/-- Code of a function, compiled once in a session. -/
def compileDirect (id : FunctionId) : SessionM (Except CompileError CompiledCode) := do
  let script ← script id
  if !(← get).holdsCode then
    modifyCodeMemory (·.acquire .speed)
    modify fun s => { s with holdsCode := true }
  match (← get).direct.lookup id with
  | some code => return .ok code
  | none =>
    match compile id script true with
    | .error e => return .error e
    | .ok code =>
      modifyCodeMemory (·.retain 1)
      modify fun s => { s with direct := (id, code) :: s.direct }
      return .ok code

/-- Compile a function and run its code. -/
def jit (id : FunctionId) (args : List Value) (slots : ReturnSlots) :
    SessionM (Except CompileError CallReport) := do
  match ← compileDirect id with
  | .error e => return .error e
  | .ok code => return .ok (← runCode code args slots)

/-! ## Engines -/

/-- The engine behind a handle. -/
def engineOf (handle : Nat) : SessionM Nat := do
  match (← get).handles[handle]? with
  | some (some e) => return e
  | _ => throw .badIndex

/-- Give out a handle of an engine. -/
def addHandle (e : Nat) : SessionM Nat := do
  let s ← get
  set { s with handles := s.handles.push (some e) }
  return s.handles.size

/-- Create an engine. -/
def engineNew (config : EngineConfig) : SessionM Nat := do
  let e := (← get).ambient.tier.engines.size
  modifyTier (·.addEngine config)
  addHandle e

/-- Clone a handle. -/
def engineClone (handle : Nat) : SessionM Nat := do
  let e ← engineOf handle
  modifyTier (·.cloneEngine e)
  addHandle e

/-- Drop a handle. -/
def engineDrop (handle : Nat) : SessionM Unit := do
  let e ← engineOf handle
  modifyTier (·.dropEngine e)
  modify fun s => { s with handles := s.handles.setIfInBounds handle none }

/-- Keep code in a slot, in place of code kept there before. -/
def keep (slot : Nat) (code : CompiledCode) : SessionM Unit := do
  let s ← get
  let others := s.kept.filter (·.1 != slot)
  modifyCodeMemory fun m => (m.retain (others.length + 1)).release s.kept.length
  modify fun s => { s with kept := (slot, code) :: others }

/-- Drop kept code; whether there was any. -/
def dropKept (slot : Nat) : SessionM Bool := do
  let s ← get
  let others := s.kept.filter (·.1 != slot)
  modifyCodeMemory (·.release (s.kept.length - others.length))
  modify fun s => { s with kept := others }
  return others.length < s.kept.length

/-- Compile a function in an engine, and keep the code if a slot is given. -/
def engineCompile (handle : Nat) (id : FunctionId) (slot : Option Nat) :
    SessionM (Except CompileError CompiledCode) := do
  let e ← engineOf handle
  let script ← script id
  let (result, tier) := (← get).ambient.tier.compileNow e id script
  modifyTier fun _ => tier
  match result, slot with
  | .ok code, some slot => keep slot code
  | _, _ => pure ()
  return result

/-- Call a function object through an engine. -/
def engineRun (handle : Nat) (id : FunctionId) (args : List Value) (slots : ReturnSlots) :
    SessionM CallReport := do
  let e ← engineOf handle
  runInto (fun p => engineCall p fuel e id) args slots

/-- Call a function object through an engine a number of times into the same slots.  The last call
counts. -/
def engineRepeat (handle : Nat) (id : FunctionId) (args : List Value) :
    Nat → ReturnSlots → Option CallReport → SessionM (Option CallReport)
  | 0, _, last => return last
  | times + 1, slots, _ => do
    let report ← engineRun handle id args slots
    engineRepeat handle id args times report.slots (some report)

/-- Invalidate a function in an engine. -/
def engineInvalidate (handle : Nat) (id : FunctionId) : SessionM Unit := do
  let e ← engineOf handle
  modifyTier (·.invalidate e id)

/-- Empty the cache of an engine. -/
def engineClear (handle : Nat) : SessionM Unit := do
  let e ← engineOf handle
  modifyTier (·.clearCache e)

/-- The engine behind a handle, with its state. -/
def engineState (handle : Nat) : SessionM Engine := do
  let e ← engineOf handle
  match (← get).ambient.tier.engines[e]? with
  | some engine => return engine
  | none => throw .badIndex

/-- Run code kept in a slot. -/
def callKept (slot : Nat) (args : List Value) (slots : ReturnSlots) : SessionM CallReport := do
  match (← get).kept.lookup slot with
  | some code => runCode code args slots
  | none => throw .badIndex

/-! ## A code cache of its own -/

/-- Sum of the sizes of those functions that are compiled directly by now. -/
def sizeOf (ids : List FunctionId) : SessionM Nat := do
  let direct := (← get).direct
  return (ids.filterMap fun id => (direct.lookup id).map (·.size)).foldl (· + ·) 0

/-- Compile functions directly, as far as they can be. -/
def compileAll (ids : List FunctionId) : SessionM Unit :=
  ids.forM fun id => do
    let _ ← compileDirect id

/-- Replace the session's cache. -/
def setCache (cache : CodeCache) : SessionM Unit := do
  let old := (← get).cache
  modifyCodeMemory fun m => (m.retain cache.count).release old.count
  modify fun s => { s with cache }

/-- A new cache whose budget is the sizes of some functions and `delta` more. -/
def cacheNew (ids : List FunctionId) (delta : Int) : SessionM Unit := do
  compileAll ids
  let size ← sizeOf ids
  setCache { limit := ((size : Int) + delta).toNat }

/-- Insert a function into the cache. -/
def cacheInsert (id : FunctionId) : SessionM (Except CompileError Unit) := do
  match ← compileDirect id with
  | .error e => return .error e
  | .ok code =>
    match (← get).cache.insert id code with
    | .error e => return .error e
    | .ok cache =>
      setCache cache
      return .ok ()

/-- Invalidate a function in the cache. -/
def cacheInvalidate (id : FunctionId) : SessionM Unit := do
  setCache ((← get).cache.invalidate id)

/-- Empty the cache. -/
def cacheClear : SessionM Unit := do
  setCache (← get).cache.clear

/-! ## Profiles and the heap -/

/-- The counters and flags of a function. -/
def profile (id : FunctionId) : SessionM (Counters × Flags) := do
  let s ← get
  return (s.ambient.counters.getD id {}, s.ambient.tier.flagsOf id)

/-- Claim a function for compilation. -/
def claim (id : FunctionId) : SessionM Bool := do
  let flags := (← get).ambient.tier.flagsOf id
  modifyTier (·.setFlags id fun f => f.tryStart.2)
  return flags.tryStart.1

/-- Allocate an object. -/
def alloc (size : Int32) : SessionM (Except Abort Address) := do
  let s ← get
  match s.memory.alloc size with
  | .ok (p, memory) =>
    set { s with memory }
    return .ok p
  | .error (.abort a) => return .error a
  | .error (.stop e) => throw e

/-- Release all objects. -/
def heapReset : SessionM Unit := modify fun s => { s with memory := s.memory.reset }

end Session

end TierVm
