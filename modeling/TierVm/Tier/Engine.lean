import TierVm.Exec.Invoke
import TierVm.Tier.CodeCache
import TierVm.Tier.CodeMemory

/-!
# Engines

An engine compiles functions that have become hot and keeps their code in its cache.  `Tier` is
the state of all engines together with the compilation flags of every function, which the engines
share, and the code memory.  The dispatcher of a tier asks the installed engine.
-/

namespace TierVm

/-- Configuration of an engine. -/
structure EngineConfig where
  enabled : Bool := true
  policy : CompilationPolicy := {}
  /-- Budget of the code cache in bytes. -/
  maxCodeSize : Nat := 67108864
  optLevel : OptLevel := .speed
  captureListing : Bool := false
  deriving DecidableEq, Repr, Inhabited

/-- An engine.  Its clones share one state; `handles` counts those alive. -/
structure Engine where
  config : EngineConfig
  cache : CodeCache
  /-- Whether the engine holds the code memory. -/
  acquired : Bool := false
  handles : Nat := 1

/-- The state of all engines. -/
structure Tier where
  engines : Array Engine := #[]
  /-- Compilation flags of every function. -/
  flags : Array Flags := #[]
  codeMemory : CodeMemory := {}
  /-- The engine that calls are routed through. -/
  installed : Option Nat := none

namespace Tier

/-- The flags of a function. -/
def flagsOf (t : Tier) (id : FunctionId) : Flags := t.flags.getD id {}

/-- Change the flags of a function. -/
def setFlags (t : Tier) (id : FunctionId) (f : Flags → Flags) : Tier :=
  { t with flags := t.flags.modify id f }

/-- Replace an engine. -/
def setEngine (t : Tier) (e : Nat) (engine : Engine) : Tier :=
  { t with engines := t.engines.setIfInBounds e engine }

/-- Add an engine. -/
def addEngine (t : Tier) (config : EngineConfig) : Tier :=
  { t with engines := t.engines.push { config, cache := { limit := config.maxCodeSize } } }

/-- Let an engine hold the code memory. -/
def acquireFor (t : Tier) (e : Nat) (engine : Engine) : Tier × Engine :=
  if engine.acquired then (t, engine)
  else
    let engine := { engine with acquired := true }
    ({ t with codeMemory := t.codeMemory.acquire engine.config.optLevel }.setEngine e engine,
      engine)

/-- Put code into the cache of an engine.  Every entry is a holder of the code memory. -/
def store (t : Tier) (e : Nat) (engine : Engine) (id : FunctionId) (code : CompiledCode) :
    Except CompileError Tier :=
  match engine.cache.insert id code with
  | .error err => .error err
  | .ok cache =>
    let memory := (t.codeMemory.retain cache.count).release engine.cache.count
    .ok ({ t with codeMemory := memory }.setEngine e { engine with cache })

/-- The code of a function in an engine, compiled now if the cache has none. -/
def obtain (t : Tier) (e : Nat) (engine : Engine) (id : FunctionId) (s : Script) :
    Except CompileError CompiledCode × Tier :=
  if !engine.config.enabled then (.error .disabled, t)
  else
    match engine.cache.get? id with
    | some code => (.ok code, t)
    | none =>
      let (t, engine) := t.acquireFor e engine
      match compile id s engine.config.captureListing with
      | .error err => (.error err, t)
      | .ok code =>
        match t.store e engine id code with
        | .error err => (.error err, t)
        | .ok t => (.ok code, t)

/-- Compile a function now, however hot it is. -/
def compileNow (t : Tier) (e : Nat) (id : FunctionId) (s : Script) :
    Except CompileError CompiledCode × Tier :=
  match t.engines[e]? with
  | none => (.error .disabled, t)
  | some engine =>
    match t.obtain e engine id s with
    | (.ok code, t) => (.ok code, t.setFlags id fun f => { f with available := true })
    | (.error .disabled, t) => (.error .disabled, t)
    | (.error err, t) => (.error err, t.setFlags id fun f => { f with failed := true })

/-- Code for a function that is called through engine `e`: cached code, or code compiled now
because the function has become hot. -/
def chooseIn (t : Tier) (e : Nat) (engine : Engine) (id : FunctionId) (s : Script)
    (c : Counters) : Option CompiledCode × Tier :=
  if !engine.config.enabled then (none, t)
  else
    match engine.cache.get? id with
    | some code => (some code, t)
    | none =>
      if !engine.config.policy.shouldCompile c (t.flagsOf id) s.code.size then (none, t)
      else if !((t.flagsOf id).tryStart).1 then (none, t)
      else
        let t := t.setFlags id fun f => f.tryStart.2
        match t.obtain e engine id s with
        | (.ok code, t) => (some code, t.setFlags id Flags.finish)
        | (.error _, t) => (none, t.setFlags id Flags.fail)

/-- Code for a function that is called, by the installed engine. -/
def choose (id : FunctionId) (s : Script) (c : Counters) (t : Tier) :
    Option CompiledCode × Tier :=
  match t.installed with
  | none => (none, t)
  | some e =>
    match t.engines[e]? with
    | none => (none, t)
    | some engine => t.chooseIn e engine id s c

/-- Route calls through an engine. -/
def install (e : Nat) (t : Tier) : Tier := { t with installed := some e }

/-- Route calls as an earlier state did. -/
def restore (before t : Tier) : Tier := { t with installed := before.installed }

/-- The dispatcher of the engines. -/
def dispatcher : Dispatcher Tier := ⟨choose, install, restore⟩

/-- Drop the code of a function, which may then be compiled again. -/
def invalidate (t : Tier) (e : Nat) (id : FunctionId) : Tier :=
  match t.engines[e]? with
  | none => t
  | some engine =>
    (t.setEngine e { engine with cache := engine.cache.invalidate id }).setFlags id Flags.forget

/-- Empty the cache of an engine. -/
def clearCache (t : Tier) (e : Nat) : Tier :=
  match t.engines[e]? with
  | none => t
  | some engine =>
    { t with codeMemory := t.codeMemory.release engine.cache.count }.setEngine e
      { engine with cache := engine.cache.clear }

/-- Clone a handle of an engine. -/
def cloneEngine (t : Tier) (e : Nat) : Tier :=
  match t.engines[e]? with
  | none => t
  | some engine => t.setEngine e { engine with handles := engine.handles + 1 }

/-- Drop a handle of an engine.  With the last one go its cache and its hold on the code
memory. -/
def dropEngine (t : Tier) (e : Nat) : Tier :=
  match t.engines[e]? with
  | none => t
  | some engine =>
    if 1 < engine.handles then t.setEngine e { engine with handles := engine.handles - 1 }
    else
      let held := engine.cache.count + (if engine.acquired then 1 else 0)
      { t with codeMemory := t.codeMemory.release held }.setEngine e
        { engine with handles := 0, acquired := false, cache := engine.cache.clear }

end Tier

/-- Call a function object through an engine. -/
def engineCall (p : Program) (fuel e : Nat) (id : FunctionId) (args : List Argument)
    (slots : ReturnSlots) (memory : Memory) (amb : Ambient Tier) :
    Except Stop (Result Tier) :=
  match invoke p Tier.dispatcher fuel id args slots memory
      { amb with tier := amb.tier.install e } with
  | .error s => .error s
  | .ok r => .ok { r with ambient := { r.ambient with tier := amb.tier.restore r.ambient.tier } }

end TierVm
