import TierVm.Proofs.HeapLedger
import TierVm.Proofs.PlainEffects
import TierVm.Proofs.Policies

/-!
# Heap events of runs

A script asks for objects by two of its instructions, and a native function by itself.  This module
lists what a run asks for and stores, at any depth of nesting, and proves that memory is what these
events lead to.  No run releases an object.

* `Script.requestAt` is the request at which an activation stands.  `Mode.request_effect` and
  `Mode.request_of_alloc` say that scripts allocate there and nowhere else, in both modes.
* `activationEvents`, `hostEvents` and `invokeEvents` follow `runActivation`, `runHost` and
  `invoke`.
* `Memory.Becomes` says that events other than a reset lead from one memory to another.
  `moves_becomes` and `ends_becomes` are the step, `runActivation_becomes` and `runHost_becomes` the
  runs, and `invoke_becomes` is the induction over the depth of calls.
* `starts_becomes` and `makes_becomes` are for the states in the midst of a run.
-/

namespace TierVm

open Lowering

variable {σ : Type}

/-! ## Requests of scripts -/

/-- The request at which an activation stands: the register for the address, and the size. -/
def Script.requestAt (s : Script) (act : Activation) : Option (Nat × Int32) :=
  (s.code[act.pc]?).bind fun i =>
    match i.opcode? with
    | some .new => (act.regs.ints[i.b.toNat]?).map (i.a.toNat, ·)
    | some .newK => (s.konst.ints[i.bc.toNat]?).map (i.a.toNat, ·)
    | _ => none

section Requests

variable {s : Script} {act : Activation} {effectAt : Activation → Option (Except Trap Effect)}
  {index : Nat} {size : Int32}

theorem inRange_eq_ok_iff {α : Type} {o : Option α} {x : α} : inRange o = .ok x ↔ o = some x := by
  cases o <;> simp [inRange]

theorem alloc_eq (index : Nat) (size : Int32) :
    Activation.alloc index size =
      if Refused size then .error (.abort { reason := .arrayTooLarge, arg := size })
      else .ok (.alloc index (occupied size)) := by
  rw [Activation.alloc, Memory.objectSize?_eq]
  by_cases hbad : Refused size
  · simp only [if_pos hbad]
    rfl
  · simp only [if_neg hbad]

/-- The instruction that makes a request allocates what is asked for. -/
theorem Script.step_of_requestAt (h : s.requestAt act = some (index, size)) :
    ∃ i, s.code[act.pc]? = some i ∧ Interpreter.step s act i = Activation.alloc index size := by
  obtain ⟨i, hi, hrequest⟩ := Option.bind_eq_some_iff.1 h
  refine ⟨i, hi, ?_⟩
  split at hrequest
  case h_3 => cases hrequest
  all_goals
    rename_i hop
    obtain ⟨size, hsize, hpair⟩ := Option.map_eq_some_iff.1 hrequest
    cases hpair
    simp only [Interpreter.step, hop, Interpreter.execute, Activation.int, Interpreter.konstInt,
      inRange, hsize]
    rfl

/-- An instruction that allocates makes a request. -/
theorem Script.requestAt_of_step {i : Instr} {bytes : Nat} (hi : s.code[act.pc]? = some i)
    (h : Interpreter.step s act i = .ok (.alloc index bytes)) :
    ∃ size, s.requestAt act = some (index, size) := by
  rw [Interpreter.step] at h
  cases hop : i.opcode? with
  | none =>
    rw [hop] at h
    cases h
  | some op =>
    rw [hop] at h
    -- The size was read where the request reads it, and the register is the one named.
    have hregister : ∀ size : Int32, Activation.alloc i.a.toNat size = .ok (.alloc index bytes) →
        i.a.toNat = index := by
      intro size hsize
      rw [alloc_eq] at hsize
      split at hsize
      · cases hsize
      · cases hsize
        rfl
    rcases execute_alloc h with rfl | rfl
    all_goals
      obtain ⟨size, hread, hsize⟩ := bind_eq_ok_iff.1 h
      refine ⟨size, ?_⟩
      rw [requestAt, hi, Option.bind_some, hop, ← hregister size hsize]
      exact Option.map_eq_some_iff.2 ⟨size, inRange_eq_ok_iff.1 hread, rfl⟩

variable (hmode : Mode s effectAt) (hverify : s.verify = .ok ()) (hfit : act.Fits s)

include hmode hverify hfit

/-- A request comes to the same in both modes. -/
theorem Mode.request_effect (h : s.requestAt act = some (index, size)) :
    effectAt act = some (Activation.alloc index size) := by
  obtain ⟨i, hi, hstep⟩ := Script.step_of_requestAt h
  rw [hmode.effect_eq hverify hfit hi, hstep]
  rw [hstep, alloc_eq]
  split <;> rfl

/-- In both modes, objects come from requests only. -/
theorem Mode.request_of_alloc {bytes : Nat}
    (h : effectAt act = some (.ok (.alloc index bytes))) :
    ∃ size, s.requestAt act = some (index, size) := by
  obtain ⟨-, hnone⟩ | ⟨op, i, hstands, heq | heq⟩ := hmode.cases hverify hfit
  · rw [hnone] at h
    cases h
  · rw [heq] at h
    exact Script.requestAt_of_step hstands.instr (Option.some.inj h)
  · rw [heq] at h
    obtain ⟨e, hstep, he⟩ := map_eq_ok_iff.1 (Option.some.inj h)
    cases e with
    | alloc index' bytes' =>
      cases he
      exact Script.requestAt_of_step hstands.instr hstep
    | _ => cases he

/-- Nothing is asked for where the code ends. -/
theorem Mode.requestAt_of_end (h : effectAt act = none) : s.requestAt act = none := by
  cases hrequest : s.requestAt act with
  | none => rfl
  | some request =>
    rw [hmode.request_effect hverify hfit hrequest] at h
    cases h

end Requests

/-! ## Events of runs -/

/-- The heap events of a call, for every way to make it. -/
abbrev EventsOf (σ : Type) :=
  FunctionId → List Argument → ReturnSlots → Memory → Ambient σ → List HeapEvent

section Events

variable (functions : Nat) (call : Invoke σ) (eventsOf : EventsOf σ) (self : FunctionId)
  (s : Script) (effectAt : Activation → Option (Except Trap Effect))

/-- What the instruction at which an activation stands does to the heap by itself. -/
def Script.eventsAt (act : Activation) : List HeapEvent :=
  match s.requestAt act with
  | some (_, size) => [.alloc size]
  | none =>
    match effectAt act with
    | some (.ok (.store p bytes)) => [.store p bytes]
    | _ => []

/-- Where the instruction at which an activation stands leads, if it aborts nothing and can be
carried out. -/
def stepAt? (act : Activation) : Option Step :=
  match effectAt act with
  | some (.ok e) => (act.perform e).toOption
  | _ => none

/-- The events of the call that an activation stands at, if it stands at one. -/
def calledEvents (act : Activation) (amb : Ambient σ) : List HeapEvent :=
  match stepAt? effectAt act with
  | some (.call act' callee args slots _) =>
    (functionAt? functions callee).elim [] fun id => eventsOf id args slots act'.memory amb
  | _ => []

/-- The events of one instruction. -/
def turnEvents (act : Activation) (amb : Ambient σ) : List HeapEvent :=
  s.eventsAt effectAt act ++ calledEvents functions eventsOf effectAt act amb

/-- The events of an activation of `self` from a state on. -/
def activationEvents : Nat → Activation → Ambient σ → List HeapEvent
  | 0, _, _ => []
  | fuel + 1, act, amb =>
    turnEvents functions eventsOf s effectAt act amb ++
      match turn functions call self effectAt act amb with
      | .on act' amb' => activationEvents fuel act' amb'
      | _ => []

/-- The events of a script in a new frame. -/
def frameEvents (fuel : Nat) (args : List Argument) (slots : ReturnSlots) (memory : Memory)
    (amb : Ambient σ) : List HeapEvent :=
  match amb.frames.push s (args.map (·.value)) with
  | (.error _, _) => []
  | (.ok frame, frames) =>
    activationEvents functions call eventsOf self s effectAt fuel (.start frame slots memory)
      { amb with frames }

/-- The events of a script that is interpreted; there are none if it is refused. -/
def interpretEvents (fuel : Nat) (s : LoadedScript) (args : List Argument) (slots : ReturnSlots)
    (memory : Memory) (amb : Ambient σ) : List HeapEvent :=
  match s.verdict with
  | .error _ => []
  | .ok _ =>
    frameEvents functions call eventsOf self s.script (interpretAt s.script) fuel args slots memory
      amb

/-- The events of a native function. -/
def hostEvents (d : Dispatcher σ) (args : List Argument) :
    HostProgram → ReturnSlots → Memory → Ambient σ → List HeapEvent
  | .finish _, _, _, _ | .fail _, _, _, _ => []
  | .write slot v next, slots, memory, amb =>
    match slots.write slot v with
    | .ok slots' => hostEvents d args next slots' memory amb
    | .error _ => []
  | .locate target next, slots, memory, amb =>
    hostEvents d args (next (target.resolve memory)) slots memory amb
  | .load address count next, slots, memory, amb =>
    (memory.read? address count).elim [] fun bytes =>
      hostEvents d args (next bytes) slots memory amb
  | .store address bytes next, slots, memory, amb =>
    .store address bytes ::
      (memory.write? address bytes).elim [] fun memory' => hostEvents d args next slots memory' amb
  | .alloc size next, slots, memory, amb =>
    .alloc size ::
      match memory.alloc size with
      | .ok (q, memory') => hostEvents d args (next (.ok q)) slots memory' amb
      | .error (.abort a) => hostEvents d args (next (.error a)) slots memory amb
      | .error (.stop _) => []
  | .call via callee passed classes next, slots, memory, amb =>
    (passedValues args slots passed).elim [] fun values =>
      let sent := values.map ({ value := · })
      eventsOf callee sent (.fresh classes) memory (d.outgoing via amb) ++
        match call callee sent (.fresh classes) memory (d.outgoing via amb) with
        | .error _ => []
        | .ok r =>
          hostEvents d args (next (callReport r)) slots r.memory (d.returning via amb r.ambient)

end Events

/-- The events of a call of a function object. -/
def invokeEvents (p : Program) (d : Dispatcher σ) : Nat → EventsOf σ
  | 0, _, _, _, _, _ => []
  | fuel + 1, id, args, slots, memory, amb =>
    match p.functions[id]? with
    | none => []
    | some (.native n) =>
      let values := args.map (·.value)
      hostEvents (invoke p d fuel) (invokeEvents p d fuel) d args (n.body values slots.size) slots
        memory { amb with log := amb.log.push ⟨id, values, slots.size⟩ }
    | some (.script s) =>
      match d.dispatch id s.script amb with
      | (some code, amb') =>
        frameEvents p.size (invoke p d fuel) (invokeEvents p d fuel) id s.script
          (executeAt code.ops) fuel args slots memory amb'
      | (none, amb') =>
        interpretEvents p.size (invoke p d fuel) (invokeEvents p d fuel) id fuel s args slots memory
          amb'

theorem calledEvents_of_call {functions : Nat} (eventsOf : EventsOf σ)
    {effectAt : Activation → Option (Except Trap Effect)} {act act' : Activation}
    {amb : Ambient σ} {e : Effect} {callee : Address} {args : List Argument} {slots : ReturnSlots}
    {targets : List Target} {id : FunctionId} (heffect : effectAt act = some (.ok e))
    (hperform : act.perform e = .ok (.call act' callee args slots targets))
    (hcallee : functionAt? functions callee = some id) :
    calledEvents functions eventsOf effectAt act amb = eventsOf id args slots act'.memory amb := by
  simp only [calledEvents, stepAt?, heffect, hperform, Except.toOption, hcallee, Option.elim]

/-! ## Memory after the events -/

/-- Events other than a reset lead from one memory to another. -/
def Memory.Becomes (m : Memory) (events : List HeapEvent) (m' : Memory) : Prop :=
  .reset ∉ events ∧ m.after? events = some m'

namespace Memory

variable {m m₁ m₂ m' : Memory} {events more : List HeapEvent} {e : HeapEvent}

theorem Becomes.refl (m : Memory) : m.Becomes [] m := ⟨List.not_mem_nil, rfl⟩

theorem Becomes.single (hreset : e ≠ .reset) (h : m.step? e = some m') : m.Becomes [e] m' := by
  refine ⟨?_, ?_⟩
  · rw [List.mem_singleton]
    exact hreset.symm
  · rw [after?_cons, h]
    rfl

theorem Becomes.append (h₁ : m.Becomes events m₁) (h₂ : m₁.Becomes more m₂) :
    m.Becomes (events ++ more) m₂ := by
  refine ⟨?_, ?_⟩
  · rw [List.mem_append]
    exact fun h => h.elim h₁.1 h₂.1
  · rw [after?_append, h₁.2]
    exact h₂.2

theorem Becomes.cons (hreset : e ≠ .reset) (h₁ : m.step? e = some m₁)
    (h₂ : m₁.Becomes more m₂) : m.Becomes (e :: more) m₂ := (Becomes.single hreset h₁).append h₂

/-- A request is an event that takes place when it is granted. -/
theorem step?_of_alloc {size : Int32} {q : Address} (h : m.alloc size = .ok (q, m')) :
    m.step? (.alloc size) = some m' := by
  simp only [step?, h]

/-- A request that is refused is an event without effect. -/
theorem step?_of_refused {size : Int32} {a : Abort} (h : m.alloc size = .error (.abort a)) :
    m.step? (.alloc size) = some m := by
  simp only [step?, h]

end Memory

/-- Memory as a step leaves it. -/
def Step.memory : Step → Memory
  | .next act _ | .call act _ _ _ _ | .leave act _ => act.memory

/-- What an effect makes of memory. -/
def Effect.Turns (m m' : Memory) : Effect → Prop
  | .alloc _ size => ∃ q, m.place size = .ok (q, m')
  | .store p bytes => m.write? p bytes = some m'
  | _ => m' = m

theorem perform_memory {act : Activation} {e : Effect} {step : Step}
    (h : act.perform e = .ok step) : e.Turns act.memory step.memory := by
  cases e with
  | put index v | param slot q =>
    simp only [Activation.perform] at h
    split at h
    · cases h
      rfl
    · cases h
  | store p bytes =>
    simp only [Activation.perform] at h
    split at h
    · rename_i hwrite
      cases h
      exact hwrite
    · cases h
  | alloc index size =>
    simp only [Activation.perform] at h
    split at h
    · cases h
    · rename_i hplace
      split at h
      · cases h
        exact ⟨_, hplace⟩
      · cases h
  | give slot v last =>
    cases last with
    | true =>
      cases h
      rfl
    | false =>
      cases h
      rfl
  | goto pc backward =>
    cases h
    rfl
  | call callee first count targets cells =>
    simp only [Activation.perform] at h
    split at h
    · cases h
      rfl
    · cases h
  | leave =>
    cases h
    rfl

/-! ## One instruction -/

section Instruction

variable {s : Script} {act : Activation} {effectAt : Activation → Option (Except Trap Effect)}
  (hmode : Mode s effectAt) (hverify : s.verify = .ok ()) (hfit : act.Fits s)

include hmode hverify hfit

/-- An effect that is carried out does to memory what the events say. -/
theorem Mode.eventsAt_becomes {e : Effect} {step : Step} (heffect : effectAt act = some (.ok e))
    (hperform : act.perform e = .ok step) :
    act.memory.Becomes (s.eventsAt effectAt act) step.memory := by
  have hmemory := perform_memory hperform
  cases hrequest : s.requestAt act with
  | some request =>
    obtain ⟨index, size⟩ := request
    have halloc := hmode.request_effect hverify hfit hrequest
    rw [heffect, alloc_eq] at halloc
    by_cases hbad : Refused size
    · rw [if_pos hbad] at halloc
      cases halloc
    · rw [if_neg hbad] at halloc
      cases halloc
      obtain ⟨q, hplace⟩ := hmemory
      simp only [Script.eventsAt, hrequest]
      exact .single (HeapEvent.alloc_ne_reset _)
        (Memory.step?_of_alloc (Memory.alloc_eq_ok_iff.2 ⟨hbad, hplace⟩))
  | none =>
    cases e with
    | store p bytes =>
      simp only [Script.eventsAt, hrequest, heffect]
      exact .single (HeapEvent.store_ne_reset _ _) hmemory
    | alloc index bytes =>
      obtain ⟨size, hsize⟩ := hmode.request_of_alloc hverify hfit heffect
      rw [hrequest] at hsize
      cases hsize
    | _ =>
      simp only [Script.eventsAt, hrequest, heffect]
      rw [show step.memory = act.memory from hmemory]
      exact .refl _

/-- An abort leaves memory as it is, and a request that aborts is one that is refused. -/
theorem Mode.eventsAt_of_abort {a : Abort} (heffect : effectAt act = some (.error (.abort a))) :
    act.memory.Becomes (s.eventsAt effectAt act) act.memory := by
  cases hrequest : s.requestAt act with
  | some request =>
    obtain ⟨index, size⟩ := request
    have halloc := hmode.request_effect hverify hfit hrequest
    rw [heffect, alloc_eq] at halloc
    simp only [Script.eventsAt, hrequest]
    by_cases hbad : Refused size
    · exact .single (HeapEvent.alloc_ne_reset _)
        (Memory.step?_of_refused (Memory.alloc_eq_abort_iff.2 ⟨hbad, rfl⟩))
    · rw [if_neg hbad] at halloc
      cases halloc
  | none =>
    simp only [Script.eventsAt, hrequest, heffect]
    exact .refl _

theorem Mode.eventsAt_of_end (heffect : effectAt act = none) : s.eventsAt effectAt act = [] := by
  simp only [Script.eventsAt, hmode.requestAt_of_end hverify hfit heffect, heffect]

end Instruction

/-! ## Activations -/

/-- Every call that comes to a result does to memory what its events say. -/
def CallBecomes (I : σ → Prop) (call : Invoke σ) (eventsOf : EventsOf σ) : Prop :=
  ∀ ⦃id args slots m amb r⦄, I amb.tier → call id args slots m amb = .ok r →
    m.Becomes (eventsOf id args slots m amb) r.memory

section Activations

variable {p : Program} {d : Dispatcher σ} {I : σ → Prop} {functions : Nat} {call : Invoke σ}
  {eventsOf : EventsOf σ} {self : FunctionId} {s : Script}
  {effectAt : Activation → Option (Except Trap Effect)} (hcall : CallBecomes I call eventsOf)
  (hmode : Mode s effectAt) (hverify : s.verify = .ok ())

include hcall hmode hverify

/-- One instruction, a whole call included. -/
theorem moves_becomes {before after : Activation × Ambient σ} (hfit : before.1.Fits s)
    (hI : I before.2.tier) (h : Moves functions call self effectAt before after) :
    before.1.memory.Becomes (turnEvents functions eventsOf s effectAt before.1 before.2)
      after.1.memory := by
  cases h with
  | next heffect hperform =>
    refine (hmode.eventsAt_becomes hverify hfit heffect hperform).append ?_
    simp only [calledEvents, stepAt?, heffect, hperform, Except.toOption]
    exact .refl _
  | call heffect hperform hcallee hrun hfinished =>
    refine (hmode.eventsAt_becomes hverify hfit heffect hperform).append ?_
    rw [calledEvents_of_call eventsOf heffect hperform hcallee]
    exact hcall hI hrun

/-- The last instruction, also when it or the function that it calls is aborted. -/
theorem ends_becomes {last : Activation × Ambient σ} {r : Result σ} (hfit : last.1.Fits s)
    (hI : I last.2.tier) (h : Ends functions call self effectAt last r) :
    last.1.memory.Becomes (turnEvents functions eventsOf s effectAt last.1 last.2) r.memory := by
  cases h with
  | falls heffect =>
    rw [turnEvents, hmode.eventsAt_of_end hverify hfit heffect]
    simp only [calledEvents, stepAt?, heffect]
    exact .refl _
  | raises heffect =>
    refine (hmode.eventsAt_of_abort hverify hfit heffect).append ?_
    simp only [calledEvents, stepAt?, heffect]
    exact .refl _
  | leaves heffect hperform =>
    refine (hmode.eventsAt_becomes hverify hfit heffect hperform).append ?_
    simp only [calledEvents, stepAt?, heffect, hperform, Except.toOption]
    exact .refl _
  | propagates heffect hperform hcallee hrun haborted =>
    have hcalled := hcall hI hrun
    refine (hmode.eventsAt_becomes hverify hfit heffect hperform).append ?_
    rw [calledEvents_of_call eventsOf heffect hperform hcallee]
    exact hcalled

variable (hd : d.Policy p I) (hkept : CallKeeps (fun t t' => I t → I t') call)

include hd hkept

/-- Wherever a path leads, some events lead there. -/
theorem reaches_becomes {first last : Activation × Ambient σ} (hfit : first.1.Fits s)
    (hI : I first.2.tier) (h : Reaches functions call self effectAt first last) :
    ∃ more, first.1.memory.Becomes more last.1.memory := by
  induction h with
  | refl => exact ⟨_, .refl _⟩
  | tail hreach hmove ih =>
    obtain ⟨more, hmore⟩ := ih
    have hfit' := fits_of_reaches hmode hverify hfit hreach
    have hI' := (reaches_kept hd.keeps hkept hreach).2 hI
    exact ⟨_, hmore.append (moves_becomes hcall hmode hverify hfit' hI' hmove)⟩

/-- A whole activation, by its instructions. -/
theorem runActivation_becomes {fuel : Nat} {act : Activation} {amb : Ambient σ} {r : Result σ}
    (hfit : act.Fits s) (hI : I amb.tier)
    (h : runActivation functions call self effectAt fuel act amb = .ok r) :
    act.memory.Becomes (activationEvents functions call eventsOf self s effectAt fuel act amb)
      r.memory := by
  induction fuel generalizing act amb with
  | zero => cases h
  | succ fuel ih =>
    rw [runActivation_succ] at h
    rw [activationEvents]
    obtain ⟨act', amb', hturn, hmove⟩ | ⟨r', hturn, hend⟩ | ⟨st, hturn⟩ :=
      turn_cases functions call self effectAt act amb
    · rw [hturn] at h ⊢
      refine (moves_becomes hcall hmode hverify hfit hI hmove).append ?_
      exact ih (fits_of_moves hmode hverify hfit hmove)
        ((moves_kept hd.keeps hkept hmove).2 hI) h
    · rw [hturn] at h ⊢
      cases h
      exact (ends_becomes hcall hmode hverify hfit hI hend).append (.refl _)
    · rw [hturn] at h
      cases h

omit hcall hmode hverify hd hkept in
theorem memory_leaveFrame (r : Result σ) : (leaveFrame r).memory = r.memory := by
  rw [leaveFrame]
  split
  · rfl
  · split <;> rfl

/-- A script in a new frame. -/
theorem activate_becomes {fuel : Nat} {args : List Argument} {slots : ReturnSlots}
    {memory : Memory} {amb : Ambient σ} {r : Result σ} (hI : I amb.tier)
    (h : activate functions call self s effectAt fuel args slots memory amb = .ok r) :
    memory.Becomes
      (frameEvents functions call eventsOf self s effectAt fuel args slots memory amb)
      r.memory := by
  rw [activate] at h
  rw [frameEvents]
  cases hpush : amb.frames.push s (args.map (·.value)) with
  | mk pushed frames =>
    rw [hpush] at h
    cases pushed with
    | error e =>
      cases h
      exact .refl _
    | ok frame =>
      obtain ⟨r', hrun, rfl⟩ := map_eq_ok_iff.1 h
      rw [memory_leaveFrame]
      exact runActivation_becomes hcall hmode hverify hd hkept
        (fits_start hverify hpush slots memory) hI hrun

omit hmode hverify in
/-- A script that is interpreted. -/
theorem interpret_becomes {fuel : Nat} {s : LoadedScript} {args : List Argument}
    {slots : ReturnSlots} {memory : Memory} {amb : Ambient σ} {r : Result σ} (hI : I amb.tier)
    (h : interpret functions call fuel self s args slots memory amb = .ok r) :
    memory.Becomes (interpretEvents functions call eventsOf self fuel s args slots memory amb)
      r.memory := by
  rw [interpret] at h
  rw [interpretEvents]
  cases hverdict : s.verdict with
  | error defect =>
    rw [hverdict] at h
    cases h
    exact .refl _
  | ok u =>
    rw [hverdict] at h
    rw [s.verdict_eq] at hverdict
    exact activate_becomes hcall .interpreted hverdict hd hkept hI h

end Activations

/-! ## Native functions -/

section Natives

variable {p : Program} {d : Dispatcher σ} {I : σ → Prop} {call : Invoke σ}
  {eventsOf : EventsOf σ} {args : List Argument}

theorem Dispatcher.Policy.outgoing (hd : d.Policy p I) (via : Option Nat) {amb : Ambient σ}
    (hI : I amb.tier) : I (d.outgoing via amb).tier := by
  cases via with
  | none => exact hI
  | some e => exact hd.install hI

variable (hcall : CallBecomes I call eventsOf) (hd : d.Policy p I)

include hcall hd

/-- One step of a native function. -/
theorem hostMoves_becomes {before after : HostState σ} (hI : I before.ambient.tier)
    (h : HostMoves d call args before after) :
    ∃ more, before.memory.Becomes more after.memory := by
  cases h with
  | write hwrite => exact ⟨_, .refl _⟩
  | locate => exact ⟨_, .refl _⟩
  | load hread => exact ⟨_, .refl _⟩
  | store hwrite => exact ⟨_, .single (HeapEvent.store_ne_reset _ _) hwrite⟩
  | alloc halloc =>
    exact ⟨_, .single (HeapEvent.alloc_ne_reset _) (Memory.step?_of_alloc halloc)⟩
  | refused halloc => exact ⟨_, .refl _⟩
  | call hpassed hrun => exact ⟨_, hcall (hd.outgoing _ hI) hrun⟩

variable (hkept : CallKeeps (fun t t' => I t → I t') call)

include hkept

/-- Any number of steps of a native function. -/
theorem hostReaches_becomes {first last : HostState σ} (hI : I first.ambient.tier)
    (h : HostReaches d call args first last) :
    ∃ more, first.memory.Becomes more last.memory := by
  induction h with
  | refl => exact ⟨_, .refl _⟩
  | tail hreach hmove ih =>
    obtain ⟨more, hmore⟩ := ih
    have hI' := (hostReaches_kept hd.keeps hkept hreach).2 hI
    obtain ⟨more', hmore'⟩ := hostMoves_becomes hcall hd hI' hmove
    exact ⟨_, hmore.append hmore'⟩

/-- A whole native function, by its steps. -/
theorem runHost_becomes {program : HostProgram} {slots : ReturnSlots} {memory : Memory}
    {amb : Ambient σ} {r : Result σ} (hI : I amb.tier)
    (h : runHost d call args program slots memory amb = .ok r) :
    memory.Becomes (hostEvents call eventsOf d args program slots memory amb) r.memory := by
  induction program generalizing slots memory amb with
  | finish count =>
    cases h
    exact .refl _
  | fail e =>
    cases h
    exact .refl _
  | write slot v next ih =>
    rw [runHost] at h
    rw [hostEvents]
    cases hwrite : slots.write slot v with
    | error cls =>
      rw [hwrite] at h
      cases h
      exact .refl _
    | ok slots' =>
      rw [hwrite] at h
      exact ih hI h
  | locate target next ih => exact ih _ hI h
  | load address count next ih =>
    rw [runHost] at h
    rw [hostEvents]
    cases hread : memory.read? address count with
    | none => simp [hread] at h
    | some bytes =>
      rw [hread] at h
      exact ih _ hI h
  | store address bytes next ih =>
    rw [runHost] at h
    rw [hostEvents]
    cases hwrite : memory.write? address bytes with
    | none => simp [hwrite] at h
    | some memory' =>
      rw [hwrite] at h
      exact .cons (HeapEvent.store_ne_reset _ _) hwrite (ih hI h)
  | alloc size next ih =>
    rw [runHost] at h
    rw [hostEvents]
    cases halloc : memory.alloc size with
    | ok placed =>
      rw [halloc] at h
      exact .cons (HeapEvent.alloc_ne_reset size) (Memory.step?_of_alloc halloc) (ih _ hI h)
    | error trap =>
      rw [halloc] at h
      cases trap with
      | stop st => cases h
      | abort a =>
        exact .cons (HeapEvent.alloc_ne_reset size) (Memory.step?_of_refused halloc) (ih _ hI h)
  | call via callee passed classes next ih =>
    rw [runHost] at h
    rw [hostEvents]
    cases hpassed : passedValues args slots passed with
    | none => simp [hpassed] at h
    | some values =>
      simp only [hpassed] at h
      cases hrun : call callee (values.map ({ value := · })) (.fresh classes) memory
          (d.outgoing via amb) with
      | error st => simp [hrun] at h
      | ok r' =>
        rw [hrun] at h
        have hback := returning_kept hd.keeps (hkept hrun)
        simp only [Option.elim, hrun]
        exact (hcall (hd.outgoing via hI) hrun).append (ih _ (hback.2 hI) h)

end Natives

/-! ## Invocations -/

section Invocations

variable {p : Program} {d : Dispatcher σ} {I : σ → Prop} (hd : d.Policy p I)

include hd

/-- Every invocation does to memory what its events say.  The induction is over the fuel, which
bounds how deep calls are nested. -/
theorem invoke_becomes (fuel : Nat) : CallBecomes I (invoke p d fuel) (invokeEvents p d fuel) := by
  induction fuel with
  | zero =>
    intro id args slots m amb r hI h
    cases h
  | succ fuel ih =>
    intro id args slots m amb r hI h
    have hkept := invoke_kept hd.keeps fuel
    rw [invoke] at h
    rw [invokeEvents]
    cases hfun : p.functions[id]? with
    | none => simp [hfun] at h
    | some f =>
      rw [hfun] at h
      cases f with
      | native n => exact runHost_becomes ih hd hkept hI h
      | script s =>
        have hI' := (dispatch_kept hd.keeps amb hfun).2 hI
        simp only at h ⊢
        cases hchoice : d.dispatch id s.script amb with
        | mk code amb' =>
          rw [hchoice] at h hI'
          cases code with
          | some code =>
            obtain ⟨hverify, hlower⟩ := hd.lowered hI hfun (congrArg Prod.fst hchoice)
            exact activate_becomes ih (.compiled hlower) hverify hd hkept hI' h
          | none => exact interpret_becomes ih hd hkept hI' h

omit hd in
/-- An activation starts in the memory of its invocation. -/
theorem Starts.memory_eq {v : Invocation σ} {s : LoadedScript}
    {effectAt : Activation → Option (Except Trap Effect)} {first : Activation × Ambient σ}
    (h : Starts p d v s effectAt first) : first.1.memory = v.memory := by
  cases h <;> rfl

/-- An activation that an invocation has started: it runs a verified script in one of the two modes,
and some events lead to its memory. -/
theorem starts_becomes {v : Invocation σ} (hI : I v.ambient.tier) {fuel : Nat} {s : LoadedScript}
    {effectAt : Activation → Option (Except Trap Effect)} {first last : Activation × Ambient σ}
    (hstart : Starts p d v s effectAt first)
    (hreach : Reaches p.size (invoke p d fuel) v.id effectAt first last) :
    s.script.verify = .ok () ∧ Mode s.script effectAt ∧ last.1.Fits s.script ∧ I last.2.tier ∧
      ∃ more, v.memory.Becomes more last.1.memory := by
  obtain ⟨hverify, hmode, hfit, hI'⟩ := hstart.mode hd hI
  have hcall := invoke_becomes hd fuel
  have hkept := invoke_kept hd.keeps fuel
  refine ⟨hverify, hmode, fits_of_reaches hmode hverify hfit hreach,
    (reaches_kept hd.keeps hkept hreach).2 hI', ?_⟩
  rw [← hstart.memory_eq]
  exact reaches_becomes hcall hmode hverify hd hkept hfit hI' hreach

/-- Some events lead to the memory in which an invocation makes another one. -/
theorem makes_becomes {v w : Invocation σ} (hI : I v.ambient.tier) (h : Makes p d v w) :
    I w.ambient.tier ∧ ∃ more, v.memory.Becomes more w.memory := by
  cases h with
  | @script fuel _ _ _ act act' amb _ _ _ _ _ _ _ hstart hreach _ hperform _ =>
    obtain ⟨_, _, _, hI', hmore⟩ := starts_becomes hd hI hstart hreach
    obtain ⟨_, _, _, _, rfl, _⟩ := perform_eq_call hperform
    exact ⟨hI', hmore⟩
  | @native fuel _ _ _ _ _ _ _ _ _ _ _ _ hreach _ =>
    have hkept := invoke_kept hd.keeps fuel
    have hI' := (hostReaches_kept hd.keeps hkept hreach).2 hI
    exact ⟨hd.outgoing _ hI', hostReaches_becomes (invoke_becomes hd fuel) hd hkept hI hreach⟩

end Invocations

end TierVm
