import TierVm.Proofs.Callbacks
import TierVm.Proofs.PlainEffects

/-!
# Traces of runs

Profiles count two things while a run is under way: the invocations of a script, and the backward
jumps of its interpreted activations.  A trace lists both in the order in which they happen, at
any depth of nesting.  It is read off the instructions and not off the counters, so it can say what
the counters should be.

* `RunEvent` is one such event.  `activationTrace`, `hostTrace` and `invokeTrace` follow
  `runActivation`, `runHost` and `invoke`.  A run that stops before it has an outcome has a trace as
  well, which ends where the run stops.
* `BackwardAt` ties the backward jumps of the trace to those that the counters see.
  `interpretAt_backward` and `executeAt_backward` prove it for the two ways of execution.
* `Dispatcher.Observes` is an invariant that relates the events so far to the counters and to the
  state of the dispatcher, and `invoke_observes` carries it over every run.
-/

namespace TierVm

variable {σ : Type}

/-! ## Events -/

/-- What a run does that profiles count. -/
inductive RunEvent (σ : Type) where
  /-- A script is invoked, and it is decided whether it runs as compiled code. -/
  | invoked (id : FunctionId) (s : Script) (before : Ambient σ) (compiled : Bool)
  /-- An interpreted activation of a script jumps to the jump itself or further back. -/
  | looped (id : FunctionId)

/-- The activation stands at a jump that leads to itself or to an earlier instruction. -/
def Script.jumpsBack (s : Script) (act : Activation) : Bool :=
  (s.code[act.pc]?).any fun i =>
    decide (i.opcode? = some .jmp) && decide (jumpTarget act.pc i ≤ (act.pc : Int))

/-! ## Traces -/

/-- The trace of a call, for every way to make it. -/
abbrev TraceOf (σ : Type) :=
  FunctionId → List Argument → ReturnSlots → Memory → Ambient σ → List (RunEvent σ)

section

variable (functions : Nat) (call : Invoke σ) (traceOf : TraceOf σ) (self : FunctionId)
  (backAt : Activation → Bool) (effectAt : Activation → Option (Except Trap Effect))

/-- The trace of the call that an activation stands at, if it stands at one. -/
def calledTrace (act : Activation) (amb : Ambient σ) : List (RunEvent σ) :=
  match effectAt act with
  | some (.ok e) =>
    match act.perform e with
    | .ok (.call act' callee args slots _) =>
      match functionAt? functions callee with
      | some id => traceOf id args slots act'.memory amb
      | none => []
    | _ => []
  | _ => []

/-- The trace of an activation of `self` from a state on.  `backAt` tells the backward jumps to be
counted. -/
def activationTrace : Nat → Activation → Ambient σ → List (RunEvent σ)
  | 0, _, _ => []
  | fuel + 1, act, amb =>
    (if backAt act then [.looped self] else []) ++
      calledTrace functions traceOf effectAt act amb ++
      match turn functions call self effectAt act amb with
      | .on act' amb' => activationTrace fuel act' amb'
      | _ => []

/-- The trace of a script in a new frame. -/
def frameTrace (s : Script) (fuel : Nat) (args : List Argument) (slots : ReturnSlots)
    (memory : Memory) (amb : Ambient σ) : List (RunEvent σ) :=
  match amb.frames.push s (args.map (·.value)) with
  | (.error _, _) => []
  | (.ok frame, frames) =>
    activationTrace functions call traceOf self backAt effectAt fuel
      (.start frame slots memory) { amb with frames }

/-- The trace of a native function. -/
def hostTrace (d : Dispatcher σ) (args : List Argument) :
    HostProgram → ReturnSlots → Memory → Ambient σ → List (RunEvent σ)
  | .finish _, _, _, _ | .fail _, _, _, _ => []
  | .write slot v next, slots, memory, amb =>
    match slots.write slot v with
    | .ok slots' => hostTrace d args next slots' memory amb
    | .error _ => []
  | .locate target next, slots, memory, amb =>
    hostTrace d args (next (target.resolve memory)) slots memory amb
  | .load address count next, slots, memory, amb =>
    match memory.read? address count with
    | some bytes => hostTrace d args (next bytes) slots memory amb
    | none => []
  | .store address bytes next, slots, memory, amb =>
    match memory.write? address bytes with
    | some memory' => hostTrace d args next slots memory' amb
    | none => []
  | .alloc size next, slots, memory, amb =>
    match memory.alloc size with
    | .ok (p, memory') => hostTrace d args (next (.ok p)) slots memory' amb
    | .error (.abort a) => hostTrace d args (next (.error a)) slots memory amb
    | .error (.stop _) => []
  | .call via callee passed classes next, slots, memory, amb =>
    match passedValues args slots passed with
    | none => []
    | some values =>
      let sent := values.map ({ value := · })
      traceOf callee sent (.fresh classes) memory (d.outgoing via amb) ++
        match call callee sent (.fresh classes) memory (d.outgoing via amb) with
        | .error _ => []
        | .ok r =>
          hostTrace d args (next (callReport r)) slots r.memory (d.returning via amb r.ambient)

end

/-- The trace of a call of a function object. -/
def invokeTrace (p : Program) (d : Dispatcher σ) : Nat → TraceOf σ
  | 0, _, _, _, _, _ => []
  | fuel + 1, id, args, slots, memory, amb =>
    match p.functions[id]? with
    | none => []
    | some (.native n) =>
      let values := args.map (·.value)
      hostTrace (invoke p d fuel) (invokeTrace p d fuel) d args (n.body values slots.size) slots
        memory { amb with log := amb.log.push ⟨id, values, slots.size⟩ }
    | some (.script s) =>
      .invoked id s.script amb (d.dispatch id s.script amb).1.isSome ::
        match d.dispatch id s.script amb with
        | (some code, amb') =>
          frameTrace p.size (invoke p d fuel) (invokeTrace p d fuel) id (fun _ => false)
            (executeAt code.ops) s.script fuel args slots memory amb'
        | (none, amb') =>
          match s.verdict with
          | .error _ => []
          | .ok _ =>
            frameTrace p.size (invoke p d fuel) (invokeTrace p d fuel) id s.script.jumpsBack
              (interpretAt s.script) s.script fuel args slots memory amb'

/-! ## Backward jumps -/

/-- The effect is a backward jump. -/
def Effect.isBackward : Effect → Bool
  | .goto _ backward => backward
  | _ => false

/-- Where an activation is told to stand at a backward jump, it jumps back or is stuck, and it jumps
back nowhere else. -/
structure BackwardAt (backAt : Activation → Bool)
    (effectAt : Activation → Option (Except Trap Effect)) : Prop where
  goto : ∀ {act : Activation}, backAt act = true →
    (∃ pc, effectAt act = some (.ok (.goto pc true))) ∨
      ∃ s, effectAt act = some (.error (.stop s))
  only : ∀ {act : Activation} {e : Effect}, effectAt act = some (.ok e) → e.isBackward = true →
    backAt act = true

/-- Carrying out an effect tells of a backward jump if the effect is one. -/
theorem backward_of_perform {act act' : Activation} {e : Effect} {backward : Bool}
    (h : act.perform e = .ok (.next act' backward)) : backward = e.isBackward := by
  cases e with
  | put index v | store address bytes | param slot q =>
    simp only [Activation.perform] at h
    split at h
    · cases h
      rfl
    · cases h
  | alloc index size =>
    simp only [Activation.perform] at h
    split at h
    · cases h
    · split at h
      · cases h
        rfl
      · cases h
  | give slot v last =>
    cases last with
    | true => cases h
    | false =>
      cases h
      rfl
  | goto pc backward =>
    cases h
    rfl
  | call callee first count targets cells =>
    simp only [Activation.perform] at h
    split at h <;> cases h
  | leave => cases h

theorem Effect.isBackward_of_isPlain {e : Effect} (h : e.isPlain = true) :
    e.isBackward = false := by
  cases e with
  | goto pc backward => exact Bool.not_eq_true' _ ▸ h
  | _ => rfl

theorem Script.jumpsBack_iff {s : Script} {act : Activation} :
    s.jumpsBack act = true ↔ ∃ i, s.code[act.pc]? = some i ∧ i.opcode? = some .jmp ∧
      jumpTarget act.pc i ≤ (act.pc : Int) := by
  simp [jumpsBack, Option.any_eq_true]

/-- No operation but a jump leads back. -/
theorem isBackward_of_execute {s : Script} {act : Activation} {op : Opcode} {i : Instr}
    {e : Effect} (hop : op ≠ .jmp) (h : Interpreter.execute s act op i = .ok e) :
    e.isBackward = false := by
  by_cases hret : op = .ret
  · subst hret
    simp only [Interpreter.execute] at h
    split at h
    · cases h
      rfl
    · obtain ⟨v, rfl⟩ := giveBack_ok h
      rfl
  · by_cases hreti : op = .reti
    · subst hreti
      obtain ⟨v, rfl⟩ := giveBack_ok h
      rfl
    · exact Effect.isBackward_of_isPlain (execute_plain hop hret hreti e h)

theorem isBackward_of_lowered {act : Activation} {o : Lowered.Op} {e : Effect}
    (h : Lowered.step act o = .ok e) : e.isBackward = false := by
  cases o with
  | ret slot value last =>
    obtain ⟨v, rfl⟩ := loweredReturn_ok h
    rfl
  | retNil =>
    cases h
    rfl
  | _ => exact Effect.isBackward_of_isPlain (lowered_plain (by simp) (by simp) e h)

/-- The interpreter jumps back at backward jumps and nowhere else. -/
theorem interpretAt_backward (s : Script) : BackwardAt s.jumpsBack (interpretAt s) where
  goto {act} hback := by
    obtain ⟨i, hi, hop, htarget⟩ := Script.jumpsBack_iff.1 hback
    have hat : interpretAt s act = some (Interpreter.jump s act i) := by
      rw [interpretAt, hi, Option.map_some, Interpreter.step, hop]
      rfl
    obtain ⟨e, he⟩ | hstop := jump_cases s act i
    · rw [hat, he, jump_ok he, decide_eq_true htarget]
      exact .inl ⟨_, rfl⟩
    · rw [hat, hstop]
      exact .inr ⟨_, rfl⟩
  only {act e} he hback := by
    rw [interpretAt, Option.map_eq_some_iff] at he
    obtain ⟨i, hi, hstep⟩ := he
    rw [Interpreter.step] at hstep
    cases hop : i.opcode? with
    | none =>
      rw [hop] at hstep
      cases hstep
    | some op =>
      rw [hop] at hstep
      by_cases hjmp : op = .jmp
      · subst hjmp
        rw [jump_ok hstep] at hback
        exact Script.jumpsBack_iff.2 ⟨i, hi, hop, of_decide_eq_true hback⟩
      · rw [isBackward_of_execute hjmp hstep] at hback
        cases hback

/-- Lowered code never tells that it jumps back. -/
theorem executeAt_backward (ops : Array Lowered.Op) :
    BackwardAt (fun _ => false) (executeAt ops) where
  goto h := nomatch h
  only {act e} he hback := by
    rw [executeAt, Option.map_eq_some_iff] at he
    obtain ⟨o, _, ho⟩ := he
    rw [isBackward_of_lowered ho] at hback
    cases hback

/-! ## Invariants of a run -/

/-- An invariant that relates the events of a run so far to the counters and to the state of the
dispatcher. -/
structure Dispatcher.Observes (d : Dispatcher σ) (p : Program)
    (J : List (RunEvent σ) → Array Counters → σ → Prop) : Prop where
  invoke : ∀ {events : List (RunEvent σ)} {amb : Ambient σ} {id : FunctionId} {s : LoadedScript},
    p.functions[id]? = some (.script s) → J events amb.counters amb.tier →
    J (events ++ [.invoked id s.script amb (d.dispatch id s.script amb).1.isSome])
      (d.dispatch id s.script amb).2.counters (d.dispatch id s.script amb).2.tier
  loop : ∀ {events : List (RunEvent σ)} {counters : Array Counters} {t : σ} {id : FunctionId},
    J events counters t → J (events ++ [.looped id]) (counters.modify id Counters.recordLoop) t
  install : ∀ {events : List (RunEvent σ)} {counters : Array Counters} {t : σ} {e : Nat},
    p.CallsVia (some e) → J events counters t → J events counters (d.install e t)
  restore : ∀ {events later : List (RunEvent σ)} {counters counters' : Array Counters}
    {before after : σ}, J events counters before → J (events ++ later) counters' after →
    J (events ++ later) counters' (d.restore before after)

/-- The invariant holds behind a run or, if the run has no outcome, where it stops. -/
def Observed (J : List (RunEvent σ) → Array Counters → σ → Prop) (events : List (RunEvent σ)) :
    Except Stop (Result σ) → Prop
  | .ok r => J events r.ambient.counters r.ambient.tier
  | .error _ => ∃ counters t, J events counters t

/-- Every call keeps an invariant, with its trace. -/
def CallObserves (J : List (RunEvent σ) → Array Counters → σ → Prop) (call : Invoke σ)
    (traceOf : TraceOf σ) : Prop :=
  ∀ id args slots memory amb {events}, J events amb.counters amb.tier →
    Observed J (events ++ traceOf id args slots memory amb) (call id args slots memory amb)

section

variable {p : Program} {d : Dispatcher σ} {J : List (RunEvent σ) → Array Counters → σ → Prop}
  {call : Invoke σ} {traceOf : TraceOf σ} {functions : Nat} {self : FunctionId}
  {backAt : Activation → Bool} {effectAt : Activation → Option (Except Trap Effect)}
  {events : List (RunEvent σ)}

theorem Observed.exists {outcome : Except Stop (Result σ)} (h : Observed J events outcome) :
    ∃ counters t, J events counters t := by
  cases outcome with
  | ok r => exact ⟨_, _, h⟩
  | error s => exact h

/-- The invariant holds behind one instruction. -/
def TurnObserved (J : List (RunEvent σ) → Array Counters → σ → Prop)
    (events : List (RunEvent σ)) : Turn σ → Prop
  | .on _ amb => J events amb.counters amb.tier
  | .done r => J events r.ambient.counters r.ambient.tier
  | .stuck _ => ∃ counters t, J events counters t

variable (hd : d.Observes p J) (hcall : CallObserves J call traceOf)

include hcall in
/-- What follows an effect that does not lead back: at most a call. -/
theorem follow_observes {amb : Ambient σ} (hJ : J events amb.counters amb.tier) {act : Activation}
    {e : Effect} {step : Step} (hperform : act.perform e = .ok step) (he : e.isBackward = false)
    (heffect : effectAt act = some (.ok e)) :
    TurnObserved J (events ++ calledTrace functions traceOf effectAt act amb)
      (follow functions call self amb step) := by
  simp only [calledTrace, heffect, hperform]
  cases step with
  | leave act' count => simpa [follow, TurnObserved] using hJ
  | next act' backward =>
    have hbackward : backward = false := by
      rw [← he]
      exact backward_of_perform hperform
    simpa [follow, TurnObserved, hbackward] using hJ
  | call act' callee args slots targets =>
    simp only [follow]
    cases hcallee : functionAt? functions callee with
    | none => exact ⟨_, _, by simpa using hJ⟩
    | some id =>
      have hcalled := hcall id args slots act'.memory amb hJ
      simp only
      cases hrun : call id args slots act'.memory amb with
      | error s =>
        rw [hrun] at hcalled
        exact hcalled
      | ok r =>
        rw [hrun] at hcalled
        simp only
        cases r.outcome with
        | aborted x => exact hcalled
        | finished count => exact hcalled

include hd hcall in
/-- One instruction. -/
theorem turn_observes (hback : BackwardAt backAt effectAt) (act : Activation) {amb : Ambient σ}
    (hJ : J events amb.counters amb.tier) :
    TurnObserved J
      (events ++ ((if backAt act then [.looped self] else []) ++
        calledTrace functions traceOf effectAt act amb))
      (turn functions call self effectAt act amb) := by
  cases hat : backAt act with
  | true =>
    obtain ⟨pc, heffect⟩ | ⟨s, heffect⟩ := hback.goto hat
    · simp only [turn, calledTrace, heffect, Activation.perform, follow, if_true]
      exact hd.loop hJ
    · simp only [turn, calledTrace, heffect]
      exact ⟨_, _, hd.loop hJ⟩
  | false =>
    simp only [Bool.false_eq_true, if_false, List.nil_append, turn]
    cases heffect : effectAt act with
    | none => simpa [calledTrace, heffect, TurnObserved] using hJ
    | some outcome =>
      cases outcome with
      | error trap =>
        cases trap with
        | stop s => exact ⟨_, _, by simpa [calledTrace, heffect] using hJ⟩
        | abort a => simpa [calledTrace, heffect, TurnObserved] using hJ
      | ok e =>
        have he : e.isBackward = false := by
          cases hbackward : e.isBackward with
          | false => rfl
          | true =>
            rw [hback.only heffect hbackward] at hat
            cases hat
        simp only
        cases hperform : act.perform e with
        | error s => exact ⟨_, _, by simpa [calledTrace, heffect, hperform] using hJ⟩
        | ok step => exact follow_observes hcall hJ hperform he heffect

include hd hcall in
/-- A whole activation, by its instructions. -/
theorem runActivation_observes (hback : BackwardAt backAt effectAt) (fuel : Nat)
    (act : Activation) {amb : Ambient σ} (hJ : J events amb.counters amb.tier) :
    Observed J
      (events ++ activationTrace functions call traceOf self backAt effectAt fuel act amb)
      (runActivation functions call self effectAt fuel act amb) := by
  induction fuel generalizing act amb events with
  | zero => exact ⟨_, _, by simpa [activationTrace] using hJ⟩
  | succ fuel ih =>
    rw [activationTrace, runActivation_succ, ← List.append_assoc]
    have hturn : TurnObserved J _ (turn functions call self effectAt act amb) :=
      turn_observes hd hcall hback act hJ
    cases hcase : turn functions call self effectAt act amb with
    | on act' amb' =>
      rw [hcase] at hturn
      exact ih act' hturn
    | done r =>
      rw [hcase] at hturn
      rw [List.append_nil]
      exact hturn
    | stuck s =>
      rw [hcase] at hturn
      rw [List.append_nil]
      exact hturn

theorem counters_leaveFrame (r : Result σ) :
    (leaveFrame r).ambient.counters = r.ambient.counters := by
  rw [leaveFrame]
  split
  · rfl
  · split <;> rfl

include hd hcall in
theorem activate_observes (hback : BackwardAt backAt effectAt) (s : Script) (fuel : Nat)
    (args : List Argument) (slots : ReturnSlots) (memory : Memory) {amb : Ambient σ}
    (hJ : J events amb.counters amb.tier) :
    Observed J
      (events ++
        frameTrace functions call traceOf self backAt effectAt s fuel args slots memory amb)
      (activate functions call self s effectAt fuel args slots memory amb) := by
  rw [frameTrace, activate]
  cases amb.frames.push s (args.map (·.value)) with
  | mk pushed frames =>
    cases pushed with
    | error e => simpa [Observed] using hJ
    | ok frame =>
      have hrun : Observed J _ (runActivation functions call self effectAt fuel
          (.start frame slots memory) { amb with frames }) :=
        runActivation_observes hd hcall hback fuel (.start frame slots memory) hJ
      simp only
      cases hcase : runActivation functions call self effectAt fuel (.start frame slots memory)
          { amb with frames } with
      | error s =>
        rw [hcase] at hrun
        exact hrun
      | ok r =>
        rw [hcase] at hrun
        simp only [Except.map, Observed, counters_leaveFrame, tier_leaveFrame]
        exact hrun

include hd hcall in
/-- A native function of the program, by the steps of its host program. -/
theorem runHost_observes (args : List Argument) {program : HostProgram}
    (hvia : ∀ via, program.CallsVia via → p.CallsVia via) (slots : ReturnSlots) (memory : Memory)
    {amb : Ambient σ} (hJ : J events amb.counters amb.tier) :
    Observed J (events ++ hostTrace call traceOf d args program slots memory amb)
      (runHost d call args program slots memory amb) := by
  induction program generalizing slots memory amb events with
  | finish count => simpa [hostTrace, runHost, Observed] using hJ
  | fail e => simpa [hostTrace, runHost, Observed] using hJ
  | write slot v next ih =>
    rw [hostTrace, runHost]
    cases slots.write slot v with
    | ok slots' => exact ih hvia slots' memory hJ
    | error cls => simpa [Observed] using hJ
  | locate target next ih => exact ih _ (fun via h => hvia via ⟨_, h⟩) slots memory hJ
  | load address count next ih =>
    rw [hostTrace, runHost]
    cases memory.read? address count with
    | some bytes => exact ih bytes (fun via h => hvia via ⟨_, h⟩) slots memory hJ
    | none => exact ⟨_, _, by simpa using hJ⟩
  | store address bytes next ih =>
    rw [hostTrace, runHost]
    cases memory.write? address bytes with
    | some memory' => exact ih hvia slots memory' hJ
    | none => exact ⟨_, _, by simpa using hJ⟩
  | alloc size next ih =>
    rw [hostTrace, runHost]
    cases memory.alloc size with
    | ok result => exact ih _ (fun via h => hvia via ⟨_, h⟩) slots _ hJ
    | error trap =>
      cases trap with
      | stop s => exact ⟨_, _, by simpa using hJ⟩
      | abort a => exact ih _ (fun via h => hvia via ⟨_, h⟩) slots memory hJ
  | call via callee passed classes next ih =>
    rw [hostTrace, runHost]
    cases passedValues args slots passed with
    | none => exact ⟨_, _, by simpa using hJ⟩
    | some values =>
      have hout : J events (d.outgoing via amb).counters (d.outgoing via amb).tier := by
        cases via with
        | none => exact hJ
        | some e => exact hd.install (hvia _ (.inl rfl)) hJ
      have hcalled := hcall callee (values.map ({ value := · })) (.fresh classes) memory _ hout
      simp only
      rw [← List.append_assoc]
      cases hrun : call callee (values.map ({ value := · })) (.fresh classes) memory
          (d.outgoing via amb) with
      | error s =>
        rw [hrun] at hcalled
        rw [List.append_nil]
        exact hcalled
      | ok r =>
        rw [hrun] at hcalled
        refine ih _ (fun via h => hvia via (.inr ⟨_, h⟩)) slots r.memory ?_
        cases via with
        | none => exact hcalled
        | some e => exact hd.restore hJ hcalled

include hd in
/-- Every run keeps an invariant of its trace.  The induction is over the fuel, which bounds how
deep calls are nested. -/
theorem invoke_observes (fuel : Nat) : CallObserves J (invoke p d fuel) (invokeTrace p d fuel) := by
  induction fuel with
  | zero =>
    intro id args slots memory amb events hJ
    exact ⟨_, _, by simpa [invokeTrace] using hJ⟩
  | succ fuel ih =>
    intro id args slots memory amb events hJ
    rw [invokeTrace, invoke]
    cases hfun : p.functions[id]? with
    | none => exact ⟨_, _, by simpa using hJ⟩
    | some f =>
      cases f with
      | native n =>
        refine runHost_observes hd ih args ?_ slots memory ?_
        · intro via hvia
          exact ⟨id, n, _, _, hfun, hvia⟩
        · exact hJ
      | script s =>
        have hdispatched := hd.invoke hfun hJ
        simp only
        rw [List.append_cons]
        cases hchoice : d.dispatch id s.script amb with
        | mk code amb' =>
          rw [hchoice] at hdispatched
          cases code with
          | some code =>
            exact activate_observes hd ih (executeAt_backward _) s.script fuel args slots memory
              hdispatched
          | none =>
            simp only [interpret]
            cases s.verdict with
            | error defect => simpa [Observed] using hdispatched
            | ok u =>
              exact activate_observes hd ih (interpretAt_backward _) s.script fuel args slots
                memory hdispatched

end

end TierVm
