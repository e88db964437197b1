import Mathlib.Logic.Relation
import TierVm.Exec.Invoke
import TierVm.Proofs.Accepted
import TierVm.Proofs.Registers

/-!
# Paths of execution

`runActivation`, `runHost` and `invoke` compute how a run ends.  The statements about every state
that a run passes through need those states as well, also of runs that never end.  This module
describes them by relations.

* `Moves` is one instruction of an activation, a whole call of another function included.  `Ends`
  is the last instruction.  `Reaches` is any number of moves.
* `runActivation_ok` says that a run which ends has moved along such a path: every invariant of
  `Moves` holds of each state in between.
* `HostMoves`, `HostEnds`, `HostReaches` and `runHost_ok` are the same for the steps of a native
  function.
* `Starts` says which activation an invocation sets up and `Refuses` why it sets up none, `Makes`
  which invocations it makes in turn, and `Within` which invocations a whole run consists of, at
  any depth of nesting.  `Visits` are the ambient states in between.

The callee of a move is an arbitrary `Invoke`.  What is proved of all paths thus holds whatever the
functions called do.
-/

namespace TierVm

variable {σ : Type}

/-! ## Activations -/

/-- What one instruction comes to. -/
inductive Turn (σ : Type) where
  | on (act : Activation) (amb : Ambient σ)
  | done (r : Result σ)
  | stuck (s : Stop)

section

variable (functions : Nat) (call : Invoke σ) (self : FunctionId)
  (effectAt : Activation → Option (Except Trap Effect))

/-- What follows an effect that was carried out: a call is made, and its results are received. -/
def follow (amb : Ambient σ) : Step → Turn σ
  | .leave act count => .done ⟨.finished count, act.slots, act.memory, amb⟩
  | .next act backward => .on act (if backward then amb.countLoop self else amb)
  | .call act callee args slots targets =>
    match functionAt? functions callee with
    | none => .stuck .badAccess
    | some id =>
      match call id args slots act.memory amb with
      | .error s => .stuck s
      | .ok r =>
        match r.outcome with
        | .aborted x =>
          .done ⟨.aborted (x.attributeTo ⟨self, act.pc⟩), act.slots, r.memory, r.ambient⟩
        | .finished _ => .on (act.resume targets r.slots r.memory) r.ambient

/-- One instruction of an activation of `self`. -/
def turn (act : Activation) (amb : Ambient σ) : Turn σ :=
  match effectAt act with
  | none => .done ⟨.finished 0, act.slots, act.memory, amb⟩
  | some (.error (.stop s)) => .stuck s
  | some (.error (.abort a)) =>
    .done ⟨.aborted (.ofAbort a (some ⟨self, act.pc⟩)), act.slots, act.memory, amb⟩
  | some (.ok e) =>
    match act.perform e with
    | .error s => .stuck s
    | .ok step => follow functions call self amb step

/-- An effect that leads to a call is one, and its slots and arguments are there. -/
theorem perform_eq_call {act act' : Activation} {e : Effect} {callee : Address}
    {args : List Argument} {slots : ReturnSlots} {targets : List Target}
    (h : act.perform e = .ok (.call act' callee args slots targets)) :
    ∃ first count cells, e = .call callee first count targets cells ∧
      act' = { act with numParam := first } ∧ act.callSlots targets cells = some slots ∧
      act.arguments targets first count = some args := by
  cases e with
  | call callee first count targets cells =>
    simp only [Activation.perform] at h
    split at h
    · rename_i hslots hargs
      cases h
      exact ⟨first, count, cells, rfl, rfl, hslots, hargs⟩
    · cases h
  | put index v | store address bytes | param slot q =>
    simp only [Activation.perform] at h
    split at h <;> cases h
  | alloc index size =>
    simp only [Activation.perform] at h
    split at h
    · cases h
    · split at h <;> cases h
  | give slot v last => cases last <;> cases h
  | goto pc backward | leave => cases h

/-- A run is a sequence of turns. -/
theorem runActivation_succ (fuel : Nat) (act : Activation) (amb : Ambient σ) :
    runActivation functions call self effectAt (fuel + 1) act amb =
      match turn functions call self effectAt act amb with
      | .on act' amb' => runActivation functions call self effectAt fuel act' amb'
      | .done r => .ok r
      | .stuck s => .error s := by
  rw [runActivation, turn]
  cases effectAt act with
  | none => rfl
  | some outcome =>
    cases outcome with
    | error trap =>
      cases trap with
      | stop s => rfl
      | abort a => rfl
    | ok e =>
      simp only
      cases act.perform e with
      | error s => rfl
      | ok step =>
        cases step with
        | leave act' count => rfl
        | next act' backward => rfl
        | call act' callee args slots targets =>
          simp only [follow]
          cases functionAt? functions callee with
          | none => rfl
          | some id =>
            simp only
            cases call id args slots act'.memory amb with
            | error s => rfl
            | ok r =>
              simp only
              cases r.outcome with
              | aborted x => rfl
              | finished count => rfl

/-- One instruction takes an activation of `self` on. -/
inductive Moves : Activation × Ambient σ → Activation × Ambient σ → Prop where
  | next {act act' : Activation} {amb : Ambient σ} {e : Effect} {backward : Bool}
      (heffect : effectAt act = some (.ok e))
      (hperform : act.perform e = .ok (.next act' backward)) :
      Moves (act, amb) (act', if backward then amb.countLoop self else amb)
  | call {act act' : Activation} {amb : Ambient σ} {e : Effect} {callee : Address}
      {args : List Argument} {slots : ReturnSlots} {targets : List Target} {id : FunctionId}
      {r : Result σ} {count : Nat}
      (heffect : effectAt act = some (.ok e))
      (hperform : act.perform e = .ok (.call act' callee args slots targets))
      (hcallee : functionAt? functions callee = some id)
      (hcall : call id args slots act'.memory amb = .ok r)
      (hfinished : r.outcome = .finished count) :
      Moves (act, amb) (act'.resume targets r.slots r.memory, r.ambient)

/-- The last instruction of an activation of `self`, with the result it leads to. -/
inductive Ends : Activation × Ambient σ → Result σ → Prop where
  | falls {act : Activation} {amb : Ambient σ} (heffect : effectAt act = none) :
      Ends (act, amb) ⟨.finished 0, act.slots, act.memory, amb⟩
  | raises {act : Activation} {amb : Ambient σ} {a : Abort}
      (heffect : effectAt act = some (.error (.abort a))) :
      Ends (act, amb)
        ⟨.aborted (.ofAbort a (some ⟨self, act.pc⟩)), act.slots, act.memory, amb⟩
  | leaves {act act' : Activation} {amb : Ambient σ} {e : Effect} {count : Nat}
      (heffect : effectAt act = some (.ok e))
      (hperform : act.perform e = .ok (.leave act' count)) :
      Ends (act, amb) ⟨.finished count, act'.slots, act'.memory, amb⟩
  | propagates {act act' : Activation} {amb : Ambient σ} {e : Effect} {callee : Address}
      {args : List Argument} {slots : ReturnSlots} {targets : List Target} {id : FunctionId}
      {r : Result σ} {x : ScriptException}
      (heffect : effectAt act = some (.ok e))
      (hperform : act.perform e = .ok (.call act' callee args slots targets))
      (hcallee : functionAt? functions callee = some id)
      (hcall : call id args slots act'.memory amb = .ok r)
      (haborted : r.outcome = .aborted x) :
      Ends (act, amb)
        ⟨.aborted (x.attributeTo ⟨self, act'.pc⟩), act'.slots, r.memory, r.ambient⟩

/-- Any number of instructions takes an activation on. -/
abbrev Reaches : Activation × Ambient σ → Activation × Ambient σ → Prop :=
  Relation.ReflTransGen (Moves functions call self effectAt)

/-- The ways in which one instruction goes on: it moves, it ends the activation, or it is
stuck. -/
theorem turn_cases (act : Activation) (amb : Ambient σ) :
    (∃ act' amb', turn functions call self effectAt act amb = .on act' amb' ∧
        Moves functions call self effectAt (act, amb) (act', amb')) ∨
      (∃ r, turn functions call self effectAt act amb = .done r ∧
        Ends functions call self effectAt (act, amb) r) ∨
      ∃ s, turn functions call self effectAt act amb = .stuck s := by
  rw [turn]
  cases heffect : effectAt act with
  | none => exact .inr (.inl ⟨_, rfl, .falls heffect⟩)
  | some outcome =>
    cases outcome with
    | error trap =>
      cases trap with
      | stop s => exact .inr (.inr ⟨s, rfl⟩)
      | abort a => exact .inr (.inl ⟨_, rfl, .raises heffect⟩)
    | ok e =>
      simp only
      cases hperform : act.perform e with
      | error s => exact .inr (.inr ⟨s, rfl⟩)
      | ok step =>
        cases step with
        | leave act' count => exact .inr (.inl ⟨_, rfl, .leaves heffect hperform⟩)
        | next act' backward => exact .inl ⟨_, _, rfl, .next heffect hperform⟩
        | call act' callee args slots targets =>
          simp only [follow]
          cases hcallee : functionAt? functions callee with
          | none => exact .inr (.inr ⟨_, rfl⟩)
          | some id =>
            simp only
            cases hcall : call id args slots act'.memory amb with
            | error s => exact .inr (.inr ⟨s, rfl⟩)
            | ok r =>
              simp only
              cases houtcome : r.outcome with
              | aborted x =>
                exact .inr (.inl ⟨_, rfl, .propagates heffect hperform hcallee hcall houtcome⟩)
              | finished count =>
                exact .inl ⟨_, _, rfl, .call heffect hperform hcallee hcall houtcome⟩

variable {functions call self effectAt}

theorem turn_of_moves {before after : Activation × Ambient σ}
    (h : Moves functions call self effectAt before after) :
    turn functions call self effectAt before.1 before.2 = .on after.1 after.2 := by
  cases h with
  | next heffect hperform => simp only [turn, heffect, hperform, follow]
  | call heffect hperform hcallee hcall hfinished =>
    simp only [turn, heffect, hperform, follow, hcallee, hcall, hfinished]

theorem turn_of_ends {last : Activation × Ambient σ} {r : Result σ}
    (h : Ends functions call self effectAt last r) :
    turn functions call self effectAt last.1 last.2 = .done r := by
  cases h with
  | falls heffect => simp only [turn, heffect]
  | raises heffect => simp only [turn, heffect]
  | leaves heffect hperform => simp only [turn, heffect, hperform, follow]
  | propagates heffect hperform hcallee hcall haborted =>
    simp only [turn, heffect, hperform, follow, hcallee, hcall, haborted]

/-- An activation moves on in one way only. -/
theorem moves_unique : Relator.RightUnique (Moves functions call self effectAt) := by
  intro before after after' h h'
  have hturn := turn_of_moves h
  rw [turn_of_moves h', Turn.on.injEq] at hturn
  exact Prod.ext hturn.1.symm hturn.2.symm

/-- A run of an activation that comes to a result has moved to its last instruction. -/
theorem runActivation_ok {fuel : Nat} {act : Activation} {amb : Ambient σ} {r : Result σ}
    (h : runActivation functions call self effectAt fuel act amb = .ok r) :
    ∃ last, Reaches functions call self effectAt (act, amb) last ∧
      Ends functions call self effectAt last r := by
  induction fuel generalizing act amb with
  | zero =>
    rw [runActivation] at h
    cases h
  | succ fuel ih =>
    rw [runActivation_succ] at h
    obtain ⟨act', amb', hturn, hmove⟩ | ⟨r', hturn, hend⟩ | ⟨s, hturn⟩ :=
      turn_cases functions call self effectAt act amb
    · rw [hturn] at h
      obtain ⟨last, hreach, hend⟩ := ih h
      exact ⟨last, .head hmove hreach, hend⟩
    · rw [hturn] at h
      cases h
      exact ⟨_, .refl, hend⟩
    · rw [hturn] at h
      cases h

/-- What is left of an invocation that was refused: the caller's slots, the memory and the ambient
state are as they were. -/
def refusal (e : VmError) (slots : ReturnSlots) (memory : Memory) (amb : Ambient σ) : Result σ :=
  ⟨.aborted (.ofAbort (.ofError e) none), slots, memory, amb⟩

/-- A script in a new frame is refused, or its activation has moved to its last instruction. -/
theorem activate_ok {s : Script} {fuel : Nat} {args : List Argument} {slots : ReturnSlots}
    {memory : Memory} {amb : Ambient σ} {r : Result σ}
    (h : activate functions call self s effectAt fuel args slots memory amb = .ok r) :
    (∃ e, (amb.frames.push s (args.map (·.value))).1 = .error e ∧
        r = refusal e slots memory amb) ∨
      ∃ frame frames last r', amb.frames.push s (args.map (·.value)) = (.ok frame, frames) ∧
        Reaches functions call self effectAt (.start frame slots memory, { amb with frames }) last ∧
        Ends functions call self effectAt last r' ∧ r = leaveFrame r' := by
  rw [activate] at h
  cases hpush : amb.frames.push s (args.map (·.value)) with
  | mk pushed frames =>
    cases pushed with
    | error e =>
      rw [hpush] at h
      cases h
      rw [FrameStack.push_error hpush]
      exact .inl ⟨e, rfl, rfl⟩
    | ok frame =>
      rw [hpush] at h
      obtain ⟨r', hrun, rfl⟩ := map_eq_ok_iff.1 h
      obtain ⟨last, hreach, hend⟩ := runActivation_ok hrun
      exact .inr ⟨frame, frames, last, r', rfl, hreach, hend, rfl⟩

end

/-! ## Native functions -/

section

variable (d : Dispatcher σ) (call : Invoke σ) (args : List Argument)

/-- The state of a native function: what remains of its behaviour, the slots of its caller, the
memory and the ambient state. -/
structure HostState (σ : Type) where
  program : HostProgram
  slots : ReturnSlots
  memory : Memory
  ambient : Ambient σ

/-- One step takes a native function on. -/
inductive HostMoves : HostState σ → HostState σ → Prop where
  | write {slot : Nat} {v : Value} {next : HostProgram} {slots slots' : ReturnSlots}
      {memory : Memory} {amb : Ambient σ} (hwrite : slots.write slot v = .ok slots') :
      HostMoves ⟨.write slot v next, slots, memory, amb⟩ ⟨next, slots', memory, amb⟩
  | locate {target : Reference} {next : Address → HostProgram} {slots : ReturnSlots}
      {memory : Memory} {amb : Ambient σ} :
      HostMoves ⟨.locate target next, slots, memory, amb⟩
        ⟨next (target.resolve memory), slots, memory, amb⟩
  | load {address : Address} {count : Nat} {next : List UInt8 → HostProgram}
      {slots : ReturnSlots} {memory : Memory} {amb : Ambient σ} {bytes : List UInt8}
      (hread : memory.read? address count = some bytes) :
      HostMoves ⟨.load address count next, slots, memory, amb⟩ ⟨next bytes, slots, memory, amb⟩
  | store {address : Address} {bytes : List UInt8} {next : HostProgram} {slots : ReturnSlots}
      {memory memory' : Memory} {amb : Ambient σ}
      (hwrite : memory.write? address bytes = some memory') :
      HostMoves ⟨.store address bytes next, slots, memory, amb⟩ ⟨next, slots, memory', amb⟩
  | alloc {size : Int32} {next : Except Abort Address → HostProgram} {slots : ReturnSlots}
      {memory memory' : Memory} {amb : Ambient σ} {p : Address}
      (halloc : memory.alloc size = .ok (p, memory')) :
      HostMoves ⟨.alloc size next, slots, memory, amb⟩ ⟨next (.ok p), slots, memory', amb⟩
  | refused {size : Int32} {next : Except Abort Address → HostProgram} {slots : ReturnSlots}
      {memory : Memory} {amb : Ambient σ} {a : Abort}
      (halloc : memory.alloc size = .error (.abort a)) :
      HostMoves ⟨.alloc size next, slots, memory, amb⟩ ⟨next (.error a), slots, memory, amb⟩
  | call {via : Option Nat} {callee : FunctionId} {passed : List Passed}
      {classes : List RegClass} {next : Except ScriptException (List Value) → HostProgram}
      {slots : ReturnSlots} {memory : Memory} {amb : Ambient σ} {values : List Value}
      {r : Result σ} (hpassed : passedValues args slots passed = some values)
      (hcall : call callee (values.map ({ value := · })) (.fresh classes) memory
        (d.outgoing via amb) = .ok r) :
      HostMoves ⟨.call via callee passed classes next, slots, memory, amb⟩
        ⟨next (callReport r), slots, r.memory, d.returning via amb r.ambient⟩

/-- The last step of a native function, with the result it leads to. -/
inductive HostEnds : HostState σ → Result σ → Prop where
  | finish {count : Nat} {slots : ReturnSlots} {memory : Memory} {amb : Ambient σ} :
      HostEnds ⟨.finish count, slots, memory, amb⟩
        ⟨.finished (min count slots.size), slots, memory, amb⟩
  | fail {e : VmError} {slots : ReturnSlots} {memory : Memory} {amb : Ambient σ} :
      HostEnds ⟨.fail e, slots, memory, amb⟩
        ⟨.aborted (.ofAbort (.ofError e) none), slots, memory, amb⟩
  | mismatch {slot : Nat} {v : Value} {next : HostProgram} {slots : ReturnSlots}
      {memory : Memory} {amb : Ambient σ} {cls : RegClass}
      (hwrite : slots.write slot v = .error cls) :
      HostEnds ⟨.write slot v next, slots, memory, amb⟩
        ⟨.aborted (.ofAbort (.ofError (.native
          s!"return slot {slot} expects {cls.letter} but got {v.regClass.letter}")) none),
          slots, memory, amb⟩

/-- Any number of steps takes a native function on. -/
abbrev HostReaches : HostState σ → HostState σ → Prop :=
  Relation.ReflTransGen (HostMoves d call args)

variable {d call args}

/-- A native function that comes to a result has moved to its last step. -/
theorem runHost_ok {program : HostProgram} {slots : ReturnSlots} {memory : Memory}
    {amb : Ambient σ} {r : Result σ}
    (h : runHost d call args program slots memory amb = .ok r) :
    ∃ last, HostReaches d call args ⟨program, slots, memory, amb⟩ last ∧ HostEnds last r := by
  induction program generalizing slots memory amb with
  | finish count =>
    cases h
    exact ⟨_, .refl, .finish⟩
  | fail e =>
    cases h
    exact ⟨_, .refl, .fail⟩
  | write slot v next ih =>
    rw [runHost] at h
    cases hwrite : slots.write slot v with
    | error cls =>
      rw [hwrite] at h
      cases h
      exact ⟨_, .refl, .mismatch hwrite⟩
    | ok slots' =>
      rw [hwrite] at h
      obtain ⟨last, hreach, hend⟩ := ih h
      exact ⟨last, .head (.write hwrite) hreach, hend⟩
  | locate target next ih =>
    obtain ⟨last, hreach, hend⟩ := ih _ h
    exact ⟨last, .head .locate hreach, hend⟩
  | load address count next ih =>
    rw [runHost] at h
    cases hread : memory.read? address count with
    | none => simp [hread] at h
    | some bytes =>
      rw [hread] at h
      obtain ⟨last, hreach, hend⟩ := ih _ h
      exact ⟨last, .head (.load hread) hreach, hend⟩
  | store address bytes next ih =>
    rw [runHost] at h
    cases hwrite : memory.write? address bytes with
    | none => simp [hwrite] at h
    | some memory' =>
      rw [hwrite] at h
      obtain ⟨last, hreach, hend⟩ := ih h
      exact ⟨last, .head (.store hwrite) hreach, hend⟩
  | alloc size next ih =>
    rw [runHost] at h
    cases halloc : memory.alloc size with
    | ok result =>
      rw [halloc] at h
      obtain ⟨last, hreach, hend⟩ := ih _ h
      exact ⟨last, .head (.alloc halloc) hreach, hend⟩
    | error trap =>
      rw [halloc] at h
      cases trap with
      | stop s => cases h
      | abort a =>
        obtain ⟨last, hreach, hend⟩ := ih _ h
        exact ⟨last, .head (.refused halloc) hreach, hend⟩
  | call via callee passed classes next ih =>
    rw [runHost] at h
    cases hpassed : passedValues args slots passed with
    | none => simp [hpassed] at h
    | some values =>
      simp only [hpassed] at h
      cases hcall : call callee (values.map ({ value := · })) (.fresh classes) memory
          (d.outgoing via amb) with
      | error s => simp [hcall] at h
      | ok r' =>
        rw [hcall] at h
        obtain ⟨last, hreach, hend⟩ := ih _ h
        exact ⟨last, .head (.call hpassed hcall) hreach, hend⟩

end

/-! ## Invocations -/

/-- What `invoke` is applied to. -/
structure Invocation (σ : Type) where
  fuel : Nat
  id : FunctionId
  args : List Argument
  slots : ReturnSlots
  memory : Memory
  ambient : Ambient σ

namespace Invocation

/-- The values of the arguments. -/
def values (v : Invocation σ) : List Value := v.args.map (·.value)

/-- How the invocation ends. -/
def run (p : Program) (d : Dispatcher σ) (v : Invocation σ) : Except Stop (Result σ) :=
  invoke p d v.fuel v.id v.args v.slots v.memory v.ambient

end Invocation

section

variable (p : Program) (d : Dispatcher σ)

/-- The activation of a script that an invocation sets up, and how its effects are found. -/
inductive Starts : Invocation σ → LoadedScript → (Activation → Option (Except Trap Effect)) →
    Activation × Ambient σ → Prop where
  | interpreted {v : Invocation σ} {s : LoadedScript} {amb : Ambient σ} {frame : Frame}
      {frames : FrameStack}
      (hscript : p.functions[v.id]? = some (.script s))
      (hchoice : d.dispatch v.id s.script v.ambient = (none, amb))
      (hverdict : s.verdict = .ok ())
      (hpush : amb.frames.push s.script v.values = (.ok frame, frames)) :
      Starts v s (interpretAt s.script) (.start frame v.slots v.memory, { amb with frames })
  | compiled {v : Invocation σ} {s : LoadedScript} {amb : Ambient σ} {code : CompiledCode}
      {frame : Frame} {frames : FrameStack}
      (hscript : p.functions[v.id]? = some (.script s))
      (hchoice : d.dispatch v.id s.script v.ambient = (some code, amb))
      (hpush : amb.frames.push s.script v.values = (.ok frame, frames)) :
      Starts v s (executeAt code.ops) (.start frame v.slots v.memory, { amb with frames })

/-- An invocation of a script is refused in front of any activation: the script has a defect, or
there is no room for its frame or for the arguments in it. -/
inductive Refuses : Invocation σ → LoadedScript → VmError → Prop where
  | unverified {v : Invocation σ} {s : LoadedScript} {defect : Defect}
      (hscript : p.functions[v.id]? = some (.script s))
      (hchoice : (d.dispatch v.id s.script v.ambient).1 = none)
      (hverdict : s.verdict = .error defect) : Refuses v s (.verify defect)
  | noRoom {v : Invocation σ} {s : LoadedScript} {e : VmError}
      (hscript : p.functions[v.id]? = some (.script s))
      (hready : (d.dispatch v.id s.script v.ambient).1 ≠ none ∨ s.verdict = .ok ())
      (hpush : ((d.dispatch v.id s.script v.ambient).2.frames.push s.script v.values).1 =
        .error e) : Refuses v s e

/-- The instruction at which an activation stands calls a function, with some fuel. -/
inductive Asks (functions fuel : Nat) (effectAt : Activation → Option (Except Trap Effect)) :
    Activation × Ambient σ → Invocation σ → Prop where
  | call {act act' : Activation} {amb : Ambient σ} {e : Effect} {callee : Address}
      {args : List Argument} {slots : ReturnSlots} {targets : List Target} {id : FunctionId}
      (heffect : effectAt act = some (.ok e))
      (hperform : act.perform e = .ok (.call act' callee args slots targets))
      (hcallee : functionAt? functions callee = some id) :
      Asks functions fuel effectAt (act, amb) ⟨fuel, id, args, slots, act'.memory, amb⟩

/-- The state in which an invocation of a native function sets out. -/
def Invocation.hostState (v : Invocation σ) (n : Native) : HostState σ where
  program := n.body v.values v.slots.size
  slots := v.slots
  memory := v.memory
  ambient := { v.ambient with log := v.ambient.log.push ⟨v.id, v.values, v.slots.size⟩ }

/-- An invocation makes another one: its activation stands at a call, or its native function
does. -/
inductive Makes : Invocation σ → Invocation σ → Prop where
  | script {v : Invocation σ} {fuel : Nat} {s : LoadedScript}
      {effectAt : Activation → Option (Except Trap Effect)} {first : Activation × Ambient σ}
      {act act' : Activation} {amb : Ambient σ} {e : Effect} {callee : Address}
      {args : List Argument} {slots : ReturnSlots} {targets : List Target} {id : FunctionId}
      (hfuel : v.fuel = fuel + 1) (hstart : Starts p d v s effectAt first)
      (hreach : Reaches p.size (invoke p d fuel) v.id effectAt first (act, amb))
      (heffect : effectAt act = some (.ok e))
      (hperform : act.perform e = .ok (.call act' callee args slots targets))
      (hcallee : functionAt? p.size callee = some id) :
      Makes v ⟨fuel, id, args, slots, act'.memory, amb⟩
  | native {v : Invocation σ} {fuel : Nat} {n : Native} {via : Option Nat}
      {callee : FunctionId} {passed : List Passed} {classes : List RegClass}
      {next : Except ScriptException (List Value) → HostProgram} {slots : ReturnSlots}
      {memory : Memory} {amb : Ambient σ} {values : List Value}
      (hfuel : v.fuel = fuel + 1) (hnative : p.functions[v.id]? = some (.native n))
      (hreach : HostReaches d (invoke p d fuel) v.args (v.hostState n)
        ⟨.call via callee passed classes next, slots, memory, amb⟩)
      (hpassed : passedValues v.args slots passed = some values) :
      Makes v ⟨fuel, callee, values.map ({ value := · }), .fresh classes, memory,
        d.outgoing via amb⟩

/-- The ambient states that an invocation itself passes through. -/
inductive Visits : Invocation σ → Ambient σ → Prop where
  | enters {v : Invocation σ} : Visits v v.ambient
  | script {v : Invocation σ} {fuel : Nat} {s : LoadedScript}
      {effectAt : Activation → Option (Except Trap Effect)} {first last : Activation × Ambient σ}
      (hfuel : v.fuel = fuel + 1) (hstart : Starts p d v s effectAt first)
      (hreach : Reaches p.size (invoke p d fuel) v.id effectAt first last) : Visits v last.2
  | native {v : Invocation σ} {fuel : Nat} {n : Native} {last : HostState σ}
      (hfuel : v.fuel = fuel + 1) (hnative : p.functions[v.id]? = some (.native n))
      (hreach : HostReaches d (invoke p d fuel) v.args (v.hostState n) last) :
      Visits v last.ambient

/-- The invocations that a run of the first one consists of. -/
abbrev Within : Invocation σ → Invocation σ → Prop := Relation.ReflTransGen (Makes p d)

variable {p d}

theorem Starts.script {v : Invocation σ} {s : LoadedScript}
    {effectAt : Activation → Option (Except Trap Effect)} {first : Activation × Ambient σ}
    (h : Starts p d v s effectAt first) : p.functions[v.id]? = some (.script s) := by
  cases h with
  | interpreted hscript _ _ _ => exact hscript
  | compiled hscript _ _ => exact hscript

theorem Refuses.script {v : Invocation σ} {s : LoadedScript} {e : VmError}
    (h : Refuses p d v s e) : p.functions[v.id]? = some (.script s) := by
  cases h with
  | unverified hscript _ _ => exact hscript
  | noRoom hscript _ _ => exact hscript

/-- An invocation that comes to a result: a native function has moved to its last step, a script
was refused after its dispatch, or an activation of it has moved to its last instruction. -/
theorem Invocation.run_ok {v : Invocation σ} {r : Result σ} (h : v.run p d = .ok r) :
    ∃ fuel, v.fuel = fuel + 1 ∧
      ((∃ n last, p.functions[v.id]? = some (.native n) ∧
          HostReaches d (invoke p d fuel) v.args (v.hostState n) last ∧ HostEnds last r) ∨
        (∃ s e, Refuses p d v s e ∧
          r = refusal e v.slots v.memory (d.dispatch v.id s.script v.ambient).2) ∨
        ∃ s effectAt first last r', Starts p d v s effectAt first ∧
          Reaches p.size (invoke p d fuel) v.id effectAt first last ∧
          Ends p.size (invoke p d fuel) v.id effectAt last r' ∧ r = leaveFrame r') := by
  obtain ⟨fuel, id, args, slots, memory, amb⟩ := v
  cases fuel with
  | zero => cases h
  | succ fuel =>
    refine ⟨fuel, rfl, ?_⟩
    simp only [Invocation.run, invoke] at h
    cases hfun : p.functions[id]? with
    | none => simp [hfun] at h
    | some f =>
      rw [hfun] at h
      cases f with
      | native n =>
        obtain ⟨last, hreach, hend⟩ := runHost_ok h
        exact .inl ⟨n, last, rfl, hreach, hend⟩
      | script s =>
        simp only at h
        cases hchoice : d.dispatch id s.script amb with
        | mk code amb' =>
          rw [hchoice] at h
          cases code with
          | some code =>
            obtain ⟨e, hpush, rfl⟩ | ⟨frame, frames, last, r', hpush, hreach, hend, rfl⟩ :=
              activate_ok h
            · refine .inr (.inl ⟨s, e, .noRoom hfun (.inl ?_) ?_, by rw [hchoice]⟩)
              · simp [hchoice]
              · simp only [hchoice]
                exact hpush
            · exact .inr (.inr ⟨s, _, _, last, r', .compiled hfun hchoice hpush, hreach, hend, rfl⟩)
          | none =>
            simp only [interpret] at h
            cases hverdict : s.verdict with
            | error defect =>
              rw [hverdict] at h
              cases h
              refine .inr (.inl ⟨s, _, .unverified hfun ?_ hverdict, by rw [hchoice]; rfl⟩)
              rw [hchoice]
            | ok u =>
              rw [hverdict] at h
              obtain ⟨e, hpush, rfl⟩ | ⟨frame, frames, last, r', hpush, hreach, hend, rfl⟩ :=
                activate_ok h
              · refine .inr (.inl ⟨s, e, .noRoom hfun (.inr hverdict) ?_, by rw [hchoice]⟩)
                simp only [hchoice]
                exact hpush
              · exact .inr (.inr ⟨s, _, _, last, r', .interpreted hfun hchoice hverdict hpush,
                  hreach, hend, rfl⟩)

end

end TierVm
