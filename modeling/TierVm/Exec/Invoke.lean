import TierVm.Exec.Host
import TierVm.Exec.Interpreter
import TierVm.Exec.Lowering
import TierVm.Tier.Profile

/-!
# Invocation

`invoke` calls any function object: a native function behaves as its host program says, and a
script runs compiled or interpreted, as the dispatcher chooses at every single invocation.  Both
ways share `runActivation`, which performs the steps of an activation one after the other, and
`activate`, which pushes a frame before and pops it afterwards.

What a run needs beyond its arguments is the `Ambient` state.  A run is bounded by a number of
steps, `fuel`; a bound that is too small gives `Stop.outOfFuel`.

How a run ends is its `Outcome`.  The exception record of the caller, in which the caller finds an
abort, takes no part in the run; `invokeInto` adds it.
-/

namespace TierVm

/-- A call of a native function. -/
structure NativeCall where
  function : FunctionId
  args : List Value
  slots : Nat

/-- The state around activations: frames, counters of every function, the native calls made so
far, and the state of the dispatcher. -/
structure Ambient (σ : Type) where
  frames : FrameStack := {}
  counters : Array Counters := #[]
  log : Array NativeCall := #[]
  tier : σ

namespace Ambient

variable {σ : Type}

/-- Count a call of a function. -/
def countCall (amb : Ambient σ) (id : FunctionId) : Ambient σ :=
  { amb with counters := amb.counters.modify id Counters.recordCall }

/-- Count a backward jump of a function. -/
def countLoop (amb : Ambient σ) (id : FunctionId) : Ambient σ :=
  { amb with counters := amb.counters.modify id Counters.recordLoop }

end Ambient

/-- How an invocation ends. -/
inductive Outcome where
  /-- The number of results written. -/
  | finished (count : Nat)
  | aborted (e : ScriptException)
  deriving DecidableEq, Repr

namespace Outcome

/-- The number that an invocation returns; zero after an abort. -/
def count : Outcome → Nat
  | .finished n => n
  | .aborted _ => 0

/-- The exception, if the invocation was aborted. -/
def exception? : Outcome → Option ScriptException
  | .finished _ => none
  | .aborted e => some e

/-- The exception record that the invocation leaves behind if the caller has provided an empty one.
What becomes of any other record is told by `invokeInto`. -/
def toRecord (o : Outcome) : ExceptionRecord := .ofException? o.exception?

end Outcome

/-- What an invocation leaves behind. -/
structure Result (σ : Type) where
  outcome : Outcome
  slots : ReturnSlots
  memory : Memory
  ambient : Ambient σ

/-- A way to call function objects. -/
abbrev Invoke (σ : Type) :=
  FunctionId → List Argument → ReturnSlots → Memory → Ambient σ → Except Stop (Result σ)

/-- Decides at every invocation of a script whether it runs compiled. -/
structure Dispatcher (σ : Type) where
  /-- Compiled code for a function with the given counters; none means "interpret". -/
  choose : FunctionId → Script → Counters → σ → Option CompiledCode × σ
  /-- Route further calls through an engine. -/
  install : Nat → σ → σ
  /-- Route calls as the first state did. -/
  restore : σ → σ → σ

section

variable {σ : Type}

namespace Dispatcher

/-- Count a call of a script and decide how it runs. -/
def dispatch (d : Dispatcher σ) (id : FunctionId) (s : Script) (amb : Ambient σ) :
    Option CompiledCode × Ambient σ :=
  let amb := amb.countCall id
  let (code, tier) := d.choose id s (amb.counters.getD id {}) amb.tier
  (code, { amb with tier })

/-- The state in which a native function makes a call, through an engine if one is given. -/
def outgoing (d : Dispatcher σ) (via : Option Nat) (amb : Ambient σ) : Ambient σ :=
  match via with
  | none => amb
  | some engine => { amb with tier := d.install engine amb.tier }

/-- The state after a call that was made in state `before`. -/
def returning (d : Dispatcher σ) (via : Option Nat) (before after : Ambient σ) : Ambient σ :=
  match via with
  | none => after
  | some _ => { after with tier := d.restore before.tier after.tier }

end Dispatcher

/-! ## Activations -/

/-- Perform the instructions of an activation of function `self`.  `effectAt` gives the effect of
the instruction at the current position, or nothing behind the end of the code. -/
@[specialize] def runActivation (functions : Nat) (call : Invoke σ) (self : FunctionId)
    (effectAt : Activation → Option (Except Trap Effect)) :
    Nat → Activation → Ambient σ → Except Stop (Result σ)
  | 0, _, _ => .error .outOfFuel
  | fuel + 1, act, amb =>
    match effectAt act with
    | none => .ok ⟨.finished 0, act.slots, act.memory, amb⟩
    | some (.error (.stop s)) => .error s
    | some (.error (.abort a)) =>
      .ok ⟨.aborted (.ofAbort a (some ⟨self, act.pc⟩)), act.slots, act.memory, amb⟩
    | some (.ok effect) =>
      match act.perform effect with
      | .error s => .error s
      | .ok (.leave act' count) => .ok ⟨.finished count, act'.slots, act'.memory, amb⟩
      | .ok (.next act' backward) =>
        runActivation functions call self effectAt fuel act'
          (if backward then amb.countLoop self else amb)
      | .ok (.call ⟨pc, regs, params, numParam, mine, memory⟩ callee args slots targets) =>
        match functionAt? functions callee with
        | none => .error .badAccess
        | some id =>
          match call id args slots memory amb with
          | .error s => .error s
          | .ok r =>
            match r.outcome with
            | .aborted e => .ok ⟨.aborted (e.attributeTo ⟨self, pc⟩), mine, r.memory, r.ambient⟩
            | .finished _ =>
              let regs := Activation.receive r.slots targets.zipIdx regs
              runActivation functions call self effectAt fuel
                ⟨pc + 1 + targets.length, regs, params, numParam, mine, r.memory⟩ r.ambient

/-- Pop the frame of an activation that has ended. -/
def leaveFrame (r : Result σ) : Result σ :=
  match r.ambient.frames.pop with
  | .ok frames => { r with ambient := { r.ambient with frames } }
  | .error e =>
    match r.outcome with
    | .aborted _ => r
    | .finished _ => { r with outcome := .aborted (.ofAbort (.ofError e) none) }

/-- Run a script in a new frame. -/
@[specialize] def activate (functions : Nat) (call : Invoke σ) (self : FunctionId) (s : Script)
    (effectAt : Activation → Option (Except Trap Effect)) (fuel : Nat) (args : List Argument)
    (slots : ReturnSlots) (memory : Memory) (amb : Ambient σ) : Except Stop (Result σ) :=
  match amb.frames.push s (args.map (·.value)) with
  | (.error e, frames) =>
    .ok ⟨.aborted (.ofAbort (.ofError e) none), slots, memory, { amb with frames }⟩
  | (.ok frame, frames) =>
    (runActivation functions call self effectAt fuel (.start frame slots memory)
      { amb with frames }).map leaveFrame

/-- The effect of the instruction at the position of an activation. -/
@[inline] def interpretAt (s : Script) (act : Activation) : Option (Except Trap Effect) :=
  (s.code[act.pc]?).map (Interpreter.step s act)

/-- The effect of the lowered operation at the position of an activation. -/
@[inline] def executeAt (ops : Array Lowered.Op) (act : Activation) : Option (Except Trap Effect) :=
  (ops[act.pc]?).map (Lowered.step act)

/-- Interpret a script.  A script that fails verification is refused. -/
def interpret (functions : Nat) (call : Invoke σ) (fuel : Nat) (self : FunctionId)
    (s : LoadedScript) (args : List Argument) (slots : ReturnSlots) (memory : Memory)
    (amb : Ambient σ) : Except Stop (Result σ) :=
  match s.verdict with
  | .error d => .ok ⟨.aborted (.ofAbort (.ofError (.verify d)) none), slots, memory, amb⟩
  | .ok _ =>
    activate functions call self s.script (interpretAt s.script) fuel args slots memory amb

/-- Run compiled code of a script.  It is given fewer than `2 ^ 31` arguments and slots, since it
counts them in signed words of 32 bits. -/
def runCompiled (functions : Nat) (call : Invoke σ) (fuel : Nat) (self : FunctionId) (s : Script)
    (ops : Array Lowered.Op) (args : List Argument) (slots : ReturnSlots) (memory : Memory)
    (amb : Ambient σ) : Except Stop (Result σ) :=
  activate functions call self s (executeAt ops) fuel args slots memory amb

/-! ## Native functions -/

/-- The values that a native function passes on; a shared string is read at this moment. -/
def passedValues (args : List Argument) (slots : ReturnSlots) (passed : List Passed) :
    Option (List Value) :=
  passed.mapM fun
    | .own i => (args[i]?).map (·.current slots)
    | .fresh v => some v

/-- What a native function learns of a call it made. -/
def callReport (r : Result σ) : Except ScriptException (List Value) :=
  match r.outcome with
  | .finished n => .ok (r.slots.toList.take n)
  | .aborted e => .error e

/-- Run the host program of a native function. -/
def runHost (d : Dispatcher σ) (call : Invoke σ) (args : List Argument) :
    HostProgram → ReturnSlots → Memory → Ambient σ → Except Stop (Result σ)
  | .finish count, slots, memory, amb =>
    .ok ⟨.finished (min count slots.size), slots, memory, amb⟩
  | .fail e, slots, memory, amb =>
    .ok ⟨.aborted (.ofAbort (.ofError e) none), slots, memory, amb⟩
  | .write slot v next, slots, memory, amb =>
    match slots.write slot v with
    | .ok slots' => runHost d call args next slots' memory amb
    | .error cls =>
      let text := s!"return slot {slot} expects {cls.letter} but got {v.regClass.letter}"
      .ok ⟨.aborted (.ofAbort (.ofError (.native text)) none), slots, memory, amb⟩
  | .locate target next, slots, memory, amb =>
    runHost d call args (next (target.resolve memory)) slots memory amb
  | .load address count next, slots, memory, amb =>
    match memory.read? address count with
    | some bytes => runHost d call args (next bytes) slots memory amb
    | none => .error .badAccess
  | .store address bytes next, slots, memory, amb =>
    match memory.write? address bytes with
    | some memory' => runHost d call args next slots memory' amb
    | none => .error .badAccess
  | .alloc size next, slots, memory, amb =>
    match memory.alloc size with
    | .ok (p, memory') => runHost d call args (next (.ok p)) slots memory' amb
    | .error (.abort a) => runHost d call args (next (.error a)) slots memory amb
    | .error (.stop s) => .error s
  | .call via callee passed classes next, slots, memory, amb =>
    match passedValues args slots passed with
    | none => .error .badIndex
    | some values =>
      match call callee (values.map ({ value := · })) (.fresh classes) memory
          (d.outgoing via amb) with
      | .error s => .error s
      | .ok r =>
        runHost d call args (next (callReport r)) slots r.memory (d.returning via amb r.ambient)

/-! ## Function objects -/

/-- Call a function object. -/
def invoke (p : Program) (d : Dispatcher σ) : Nat → Invoke σ
  | 0, _, _, _, _, _ => .error .outOfFuel
  | fuel + 1, id, args, slots, memory, amb =>
    match p.functions[id]? with
    | none => .error .badAccess
    | some (.native n) =>
      let values := args.map (·.value)
      runHost d (invoke p d fuel) args (n.body values slots.size) slots memory
        { amb with log := amb.log.push ⟨id, values, slots.size⟩ }
    | some (.script s) =>
      match d.dispatch id s.script amb with
      | (some code, amb) =>
        runCompiled p.size (invoke p d fuel) fuel id s.script code.ops args slots memory amb
      | (none, amb) => interpret p.size (invoke p d fuel) fuel id s args slots memory amb

end

end TierVm
