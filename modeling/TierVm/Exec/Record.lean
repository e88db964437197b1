import TierVm.Exec.Invoke

/-!
# Invocations with an exception record

The caller of an invocation provides an exception record, which every call in between hands on.  It
may hold anything, as long as nothing is raised.  `invokeInto` is an invocation with such a record,
and `invokeRecord` tells what the record holds afterwards; it follows the steps of `invoke`.

When a run aborts, the record is filled in once, where the abort comes up.  Most of the time the
abort is raised, which replaces all that was recorded.  Only guards in compiled code write reason,
argument and place and leave the payload as it was.
-/

namespace TierVm

/-- What becomes of the caller's record in a call, for every way to make it. -/
abbrev RecordOf (σ : Type) :=
  FunctionId → List Argument → ReturnSlots → Memory → Ambient σ → ExceptionRecord → ExceptionRecord

section

variable {σ : Type}

/-! ## Activations -/

/-- How aborts enter a record: raised by the interpreter, and in compiled code as the operation at
the position of the activation has it. -/
abbrev FillAt := Activation → ExceptionRecord → Abort → Option Location → ExceptionRecord

/-- The interpreter raises every abort. -/
def raiseAt : FillAt := fun _ => ExceptionRecord.raise

/-- Compiled code fills in an abort as its operation does. -/
def fillAt (ops : Array Lowered.Op) : FillAt := fun act =>
  match ops[act.pc]? with
  | some op => op.fill
  | none => ExceptionRecord.raise

/-- What becomes of the record in an activation of `self`.  An abort of a callee that has no place
is attributed to the call. -/
def activationRecord (functions : Nat) (call : Invoke σ) (recordOf : RecordOf σ)
    (self : FunctionId) (fill : FillAt) (effectAt : Activation → Option (Except Trap Effect)) :
    Nat → Activation → Ambient σ → ExceptionRecord → ExceptionRecord
  | 0, _, _, record => record
  | fuel + 1, act, amb, record =>
    match effectAt act with
    | none | some (.error (.stop _)) => record
    | some (.error (.abort a)) => fill act record a (some ⟨self, act.pc⟩)
    | some (.ok effect) =>
      match act.perform effect with
      | .error _ | .ok (.leave _ _) => record
      | .ok (.next act' backward) =>
        activationRecord functions call recordOf self fill effectAt fuel act'
          (if backward then amb.countLoop self else amb) record
      | .ok (.call ⟨pc, regs, params, numParam, mine, memory⟩ callee args slots targets) =>
        match functionAt? functions callee with
        | none => record
        | some id =>
          -- The callee is handed the record, and the call site is noted in it at once.
          let record := (recordOf id args slots memory amb record).attributeTo (some ⟨self, pc⟩)
          match call id args slots memory amb with
          | .error _ => record
          | .ok r =>
            match r.outcome with
            | .aborted _ => record
            | .finished _ =>
              let regs := Activation.receive r.slots targets.zipIdx regs
              activationRecord functions call recordOf self fill effectAt fuel
                ⟨pc + 1 + targets.length, regs, params, numParam, mine, r.memory⟩ r.ambient record

/-- What becomes of the record when the frame of an activation is popped: a failure is raised
unless an exception is recorded. -/
def leaveRecord (r : Result σ) (record : ExceptionRecord) : ExceptionRecord :=
  match r.ambient.frames.pop with
  | .ok _ => record
  | .error e => if record.isRaised then record else record.raise (.ofError e) none

/-- What becomes of the record in a script that gets a new frame. -/
def frameRecord (functions : Nat) (call : Invoke σ) (recordOf : RecordOf σ) (self : FunctionId)
    (s : Script) (fill : FillAt) (effectAt : Activation → Option (Except Trap Effect))
    (fuel : Nat) (args : List Argument) (slots : ReturnSlots) (memory : Memory) (amb : Ambient σ)
    (record : ExceptionRecord) : ExceptionRecord :=
  match amb.frames.push s (args.map (·.value)) with
  | (.error e, _) => record.raise (.ofError e) none
  | (.ok frame, frames) =>
    let first := Activation.start frame slots memory
    let record := activationRecord functions call recordOf self fill effectAt fuel first
      { amb with frames } record
    match runActivation functions call self effectAt fuel first { amb with frames } with
    | .error _ => record
    | .ok r => leaveRecord r record

/-! ## Function objects -/

/-- What becomes of the record of a native function that was run: its failure is raised.  The calls
that it makes itself have records of their own. -/
def nativeRecord (run : Except Stop (Result σ)) (record : ExceptionRecord) : ExceptionRecord :=
  match run with
  | .error _ => record
  | .ok r =>
    match r.outcome with
    | .finished _ => record
    | .aborted e => record.raise ⟨e.reason, e.arg, e.payload⟩ e.place

/-- What becomes of the caller's record in a call of a function object. -/
def invokeRecord (p : Program) (d : Dispatcher σ) : Nat → RecordOf σ
  | 0, _, _, _, _, _, record => record
  | fuel + 1, id, args, slots, memory, amb, record =>
    match p.functions[id]? with
    | none => record
    | some (.native n) =>
      let values := args.map (·.value)
      nativeRecord
        (runHost d (invoke p d fuel) args (n.body values slots.size) slots memory
          { amb with log := amb.log.push ⟨id, values, slots.size⟩ })
        record
    | some (.script s) =>
      match d.dispatch id s.script amb with
      | (some code, amb) =>
        frameRecord p.size (invoke p d fuel) (invokeRecord p d fuel) id s.script (fillAt code.ops)
          (executeAt code.ops) fuel args slots memory amb record
      | (none, amb) =>
        match s.verdict with
        | .error defect => record.raise (.ofError (.verify defect)) none
        | .ok _ =>
          frameRecord p.size (invoke p d fuel) (invokeRecord p d fuel) id s.script raiseAt
            (interpretAt s.script) fuel args slots memory amb record

/-- Call a function object with the record of its caller. -/
def invokeInto (p : Program) (d : Dispatcher σ) (fuel : Nat) (id : FunctionId)
    (args : List Argument) (slots : ReturnSlots) (memory : Memory) (amb : Ambient σ)
    (record : ExceptionRecord) : Except Stop (Result σ × ExceptionRecord) :=
  (invoke p d fuel id args slots memory amb).map fun r =>
    (r, invokeRecord p d fuel id args slots memory amb record)

end

end TierVm
