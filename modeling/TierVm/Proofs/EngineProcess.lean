import TierVm.Proofs.AmbientKept
import TierVm.Proofs.Callbacks
import TierVm.Proofs.Ledger

/-!
# Processes

What engines do over the life of a process depends on its whole history: who was created, dropped,
cleared and invalidated before.  `Tier.Process` relates the states of the engines to the events
that led to them.

* `obtainEvents`, `compileEvents`, `chooseEvents` and `dropEvents` are the events of operations
  that can go in several ways.  `Obtained`, `Requested` and `Chosen` list these ways, with the state
  and the events that each of them leads to, so that later proofs need not look into the
  operations.
* `Tier.Step` is one operation with its events, and `Tier.Process` any sequence of them.
* A call is not a single step.  It routes calls through an engine, chooses at every invocation of
  a script, and routes calls back in the end, and `process_of_engineCall` and `process_of_moment`
  say that it passes through states of the process only.
-/

namespace TierVm

variable {p : Program}

/-- An entry of the log that an engine turns to the code memory: it asks for it unless it holds it
already. -/
def reachEvents (e : Nat) (engine : Engine) (id : FunctionId) : List TierEvent :=
  if engine.acquired then [.attempted e id]
  else [.acquired (.engine e) engine.config.optLevel, .attempted e id]

/-- The events of `Tier.obtain`. -/
def obtainEvents (e : Nat) (engine : Engine) (id : FunctionId) (s : Script) : List TierEvent :=
  if !engine.config.enabled then []
  else
    match engine.cache.get? id with
    | some _ => []
    | none =>
      match compile id s engine.config.captureListing with
      | .error _ => reachEvents e engine id
      | .ok code =>
        match engine.cache.insert id code with
        | .error _ => reachEvents e engine id
        | .ok _ => .shared (.entry e id) (.engine e) :: reachEvents e engine id

namespace Tier

variable {t t' : Tier} {e : Nat} {engine : Engine} {id : FunctionId} {s : Script} {c : Counters}

/-- An engine that has handles. -/
def Live (t : Tier) (e : Nat) : Prop := ∃ engine, t.engines[e]? = some engine ∧ 0 < engine.handles

/-- The events of `Tier.compileNow`. -/
def compileEvents (t : Tier) (e : Nat) (id : FunctionId) (s : Script) : List TierEvent :=
  match t.engines[e]? with
  | none => []
  | some engine =>
    match (t.obtain e engine id s).1 with
    | .ok _ => .compiled e id :: obtainEvents e engine id s
    | .error .disabled => obtainEvents e engine id s
    | .error _ => .failed e id :: obtainEvents e engine id s

/-- Whether an engine starts to compile a function that is called. -/
def starts (t : Tier) (engine : Engine) (id : FunctionId) (s : Script) (c : Counters) : Bool :=
  engine.config.enabled && (engine.cache.get? id).isNone &&
    engine.config.policy.shouldCompile c (t.flagsOf id) s.code.size && (t.flagsOf id).tryStart.1

/-- A state in which a function is claimed for compilation. -/
def claimed (t : Tier) (id : FunctionId) : Tier := t.setFlags id fun f => f.tryStart.2

/-- The events of `Tier.choose`. -/
def chooseEvents (t : Tier) (id : FunctionId) (s : Script) (c : Counters) : List TierEvent :=
  match t.installed with
  | none => []
  | some e =>
    match t.engines[e]? with
    | none => []
    | some engine =>
      if t.starts engine id s c then
        match ((t.claimed id).obtain e engine id s).1 with
        | .ok _ => .compiled e id :: (obtainEvents e engine id s ++ [.started e id])
        | .error _ => .failed e id :: (obtainEvents e engine id s ++ [.started e id])
      else []

/-- The events of `Tier.dropEngine`. -/
def dropEvents (t : Tier) (e : Nat) : List TierEvent :=
  match t.engines[e]? with
  | none => []
  | some engine => if 1 < engine.handles then [] else [.ended e]

/-! ## The ways of an operation -/

/-- The state after an engine has stored code, which gives it a new cache. -/
def stored (t : Tier) (e : Nat) (engine : Engine) (cache : CodeCache) : Tier :=
  { t with codeMemory := (t.codeMemory.retain cache.count).release engine.cache.count }.setEngine e
    { engine with cache }

/-- The ways in which an engine obtains code, with the state and the events they lead to. -/
inductive Obtained (t : Tier) (e : Nat) (engine : Engine) (id : FunctionId) (s : Script) :
    Except CompileError CompiledCode × Tier → List TierEvent → Prop where
  | disabled (h : engine.config.enabled = false) : Obtained t e engine id s (.error .disabled, t) []
  | cached {code : CompiledCode} (henabled : engine.config.enabled = true)
      (hget : engine.cache.get? id = some code) : Obtained t e engine id s (.ok code, t) []
  /-- The code memory was reached, but there was no code or no room for it. -/
  | refused {err : CompileError} (henabled : engine.config.enabled = true)
      (hget : engine.cache.get? id = none)
      (hrefused : ∀ code cache, compile id s engine.config.captureListing = .ok code →
        engine.cache.insert id code ≠ .ok cache) :
      Obtained t e engine id s (.error err, (t.acquireFor e engine).1) (reachEvents e engine id)
  | stored {code : CompiledCode} {cache : CodeCache} (henabled : engine.config.enabled = true)
      (hget : engine.cache.get? id = none)
      (hcompile : compile id s engine.config.captureListing = .ok code)
      (hinsert : engine.cache.insert id code = .ok cache) :
      Obtained t e engine id s
        (.ok code, (t.acquireFor e engine).1.stored e { engine with acquired := true } cache)
        (.shared (.entry e id) (.engine e) :: reachEvents e engine id)

/-- Whether it held the code memory before or not, the engine holds it afterwards. -/
theorem acquireFor_snd (t : Tier) (e : Nat) (engine : Engine) :
    (t.acquireFor e engine).2 = { engine with acquired := true } := by
  obtain ⟨config, cache, acquired, handles⟩ := engine
  cases acquired <;> rfl

theorem obtained (t : Tier) (e : Nat) (engine : Engine) (id : FunctionId) (s : Script) :
    Obtained t e engine id s (t.obtain e engine id s) (obtainEvents e engine id s) := by
  rw [Tier.obtain, obtainEvents]
  cases henabled : engine.config.enabled with
  | false => exact .disabled henabled
  | true =>
    cases hget : engine.cache.get? id with
    | some code => exact .cached henabled hget
    | none =>
      simp only [Bool.not_true, Bool.false_eq_true, if_false]
      rw [acquireFor_snd]
      cases hcompile : compile id s engine.config.captureListing with
      | error err =>
        refine .refused henabled hget ?_
        intro code cache hcode
        rw [hcompile] at hcode
        cases hcode
      | ok code =>
        simp only [store]
        cases hinsert : engine.cache.insert id code with
        | error err =>
          refine .refused henabled hget ?_
          intro code' cache hcode hstored
          rw [hcompile] at hcode
          cases hcode
          rw [hinsert] at hstored
          cases hstored
        | ok cache => exact .stored henabled hget hcompile hinsert

/-- The ways in which a request to compile a function is answered, with the state and the events
they lead to. -/
inductive Requested (t : Tier) (e : Nat) (id : FunctionId) (s : Script) :
    Except CompileError CompiledCode × Tier → List TierEvent → Prop where
  | absent (hengine : t.engines[e]? = none) : Requested t e id s (.error .disabled, t) []
  | compiled {engine : Engine} {code : CompiledCode} {t' : Tier}
      (hengine : t.engines[e]? = some engine)
      (hobtain : t.obtain e engine id s = (.ok code, t')) :
      Requested t e id s (.ok code, t'.setFlags id fun f => { f with available := true })
        (.compiled e id :: obtainEvents e engine id s)
  | disabled {engine : Engine} {t' : Tier} (hengine : t.engines[e]? = some engine)
      (hobtain : t.obtain e engine id s = (.error .disabled, t')) :
      Requested t e id s (.error .disabled, t') (obtainEvents e engine id s)
  | failed {engine : Engine} {err : CompileError} {t' : Tier}
      (hengine : t.engines[e]? = some engine)
      (hobtain : t.obtain e engine id s = (.error err, t')) :
      Requested t e id s (.error err, t'.setFlags id fun f => { f with failed := true })
        (.failed e id :: obtainEvents e engine id s)

theorem requested (t : Tier) (e : Nat) (id : FunctionId) (s : Script) :
    Requested t e id s (t.compileNow e id s) (t.compileEvents e id s) := by
  rw [compileNow, compileEvents]
  cases hengine : t.engines[e]? with
  | none => exact .absent hengine
  | some engine =>
    simp only
    cases hobtain : t.obtain e engine id s with
    | mk outcome t' =>
      cases outcome with
      | ok code => exact .compiled hengine hobtain
      | error err =>
        cases err with
        | disabled => exact .disabled hengine hobtain
        | unknownOpcode | verify | malformed | codegen | cacheFull => exact .failed hengine hobtain

/-- The ways in which an invocation of a script is decided, with the state and the events they lead
to. -/
inductive Chosen (t : Tier) (id : FunctionId) (s : Script) (c : Counters) :
    Option CompiledCode × Tier → List TierEvent → Prop where
  /-- No engine, or one that does not start to compile. -/
  | settled {code : Option CompiledCode} : Chosen t id s c (code, t) []
  | compiled {e : Nat} {engine : Engine} {code : CompiledCode} {t' : Tier}
      (hinstalled : t.installed = some e) (hengine : t.engines[e]? = some engine)
      (hstarts : t.starts engine id s c = true)
      (hobtain : (t.claimed id).obtain e engine id s = (.ok code, t')) :
      Chosen t id s c (some code, t'.setFlags id Flags.finish)
        (.compiled e id :: (obtainEvents e engine id s ++ [.started e id]))
  | failed {e : Nat} {engine : Engine} {err : CompileError} {t' : Tier}
      (hinstalled : t.installed = some e) (hengine : t.engines[e]? = some engine)
      (hstarts : t.starts engine id s c = true)
      (hobtain : (t.claimed id).obtain e engine id s = (.error err, t')) :
      Chosen t id s c (none, t'.setFlags id Flags.fail)
        (.failed e id :: (obtainEvents e engine id s ++ [.started e id]))

/-- An engine that does not start to compile gives the code it has. -/
theorem chooseIn_eq (t : Tier) (e : Nat) (engine : Engine) (id : FunctionId) (s : Script)
    (c : Counters) :
    t.chooseIn e engine id s c =
      if t.starts engine id s c then
        match (t.claimed id).obtain e engine id s with
        | (.ok code, t') => (some code, t'.setFlags id Flags.finish)
        | (.error _, t') => (none, t'.setFlags id Flags.fail)
      else (if engine.config.enabled then engine.cache.get? id else none, t) := by
  rw [chooseIn, starts]
  cases engine.config.enabled with
  | false => rfl
  | true =>
    cases engine.cache.get? id with
    | some code => rfl
    | none =>
      cases engine.config.policy.shouldCompile c (t.flagsOf id) s.code.size with
      | false => rfl
      | true => cases (t.flagsOf id).tryStart.1 <;> rfl

theorem chosen (t : Tier) (id : FunctionId) (s : Script) (c : Counters) :
    Chosen t id s c (choose id s c t) (t.chooseEvents id s c) := by
  rw [choose, chooseEvents]
  cases hinstalled : t.installed with
  | none => exact .settled
  | some e =>
    cases hengine : t.engines[e]? with
    | none => simpa only [hengine] using Chosen.settled
    | some engine =>
      simp only [hengine, chooseIn_eq]
      cases hstarts : t.starts engine id s c with
      | false => exact .settled
      | true =>
        cases hobtain : (t.claimed id).obtain e engine id s with
        | mk outcome t' =>
          cases outcome with
          | ok code => exact .compiled hinstalled hengine hstarts hobtain
          | error err => exact .failed hinstalled hengine hstarts hobtain

/-! ## Handles -/

theorem getElem?_setEngine (hengine : t.engines[e]? = some engine) (engine' : Engine) (k : Nat) :
    (t.setEngine e engine').engines[k]? = if k = e then some engine' else t.engines[k]? := by
  obtain ⟨hlt, _⟩ := Array.getElem?_eq_some_iff.1 hengine
  rw [setEngine, Array.getElem?_setIfInBounds]
  by_cases hk : k = e
  · subst hk
    simp [hlt]
  · simp [hk, Ne.symm hk]

/-- An engine that turns to the code memory is the same afterwards, but for holding it. -/
theorem getElem?_acquireFor (hengine : t.engines[e]? = some engine) (k : Nat) :
    (t.acquireFor e engine).1.engines[k]? =
      if k = e then some { engine with acquired := true } else t.engines[k]? := by
  rw [acquireFor]
  split
  · rename_i hacquired
    by_cases hk : k = e
    · subst hk
      rw [if_pos rfl, hengine, ← hacquired]
    · rw [if_neg hk]
  · exact getElem?_setEngine (t := { t with codeMemory := _ }) hengine _ k

theorem getElem?_stored (hengine : t.engines[e]? = some engine) (cache : CodeCache) (k : Nat) :
    (t.stored e engine cache).engines[k]? =
      if k = e then some { engine with cache } else t.engines[k]? :=
  getElem?_setEngine (t := { t with codeMemory := _ }) hengine _ k

/-- Engines stay live while one of them is replaced by one with no fewer handles. -/
theorem Live.setEngine {k : Nat} {engine' : Engine} (h : t.Live k)
    (hengine : t.engines[e]? = some engine) (hhandles : engine.handles ≤ engine'.handles) :
    (t.setEngine e engine').Live k := by
  obtain ⟨other, hother, hpos⟩ := h
  rw [Live, getElem?_setEngine hengine]
  by_cases hk : k = e
  · subst hk
    rw [hengine] at hother
    cases hother
    exact ⟨engine', if_pos rfl, by omega⟩
  · exact ⟨other, (if_neg hk).trans hother, hpos⟩

theorem Live.acquireFor {k : Nat} (h : t.Live k) (hengine : t.engines[e]? = some engine) :
    (t.acquireFor e engine).1.Live k := by
  rw [Tier.acquireFor]
  split
  · exact h
  · exact Live.setEngine (t := { t with codeMemory := _ }) h hengine (Nat.le_refl _)

theorem Live.stored {k : Nat} (h : t.Live k) (hengine : t.engines[e]? = some engine)
    (cache : CodeCache) : (t.stored e engine cache).Live k :=
  Live.setEngine (t := { t with codeMemory := _ }) h hengine (Nat.le_refl _)

theorem Live.obtain {k : Nat} (h : t.Live k) (hengine : t.engines[e]? = some engine)
    (id : FunctionId) (s : Script) : (t.obtain e engine id s).2.Live k := by
  have hobtained := obtained t e engine id s
  generalize t.obtain e engine id s = outcome, obtainEvents e engine id s = events at hobtained
  cases hobtained with
  | disabled hdisabled => exact h
  | cached henabled hget => exact h
  | refused henabled hget hrefused => exact h.acquireFor hengine
  | stored henabled hget hcompile hinsert =>
    have hacquired := getElem?_acquireFor hengine e
    rw [if_pos rfl] at hacquired
    exact (h.acquireFor hengine).stored hacquired _

theorem Live.compileNow {k : Nat} (h : t.Live k) : (t.compileNow e id s).2.Live k := by
  have hrequested := requested t e id s
  generalize t.compileNow e id s = outcome, t.compileEvents e id s = events at hrequested
  cases hrequested with
  | absent hengine => exact h
  | compiled hengine hobtain | disabled hengine hobtain | failed hengine hobtain =>
    have hlive := h.obtain hengine id s
    rw [hobtain] at hlive
    exact hlive

theorem Live.choose {k : Nat} (h : t.Live k) : (choose id s c t).2.Live k := by
  have hchosen := chosen t id s c
  generalize Tier.choose id s c t = outcome, t.chooseEvents id s c = events at hchosen
  cases hchosen with
  | settled => exact h
  | compiled hinstalled hengine hstarts hobtain | failed hinstalled hengine hstarts hobtain =>
    have hclaimed : (t.claimed id).Live k := h
    have hlive := hclaimed.obtain hengine id s
    rw [hobtain] at hlive
    exact hlive

theorem Live.setEngine_ne {k : Nat} (h : t.Live k) (hk : k ≠ e) (engine' : Engine) :
    (t.setEngine e engine').Live k := by
  obtain ⟨engine, hengine, hpos⟩ := h
  refine ⟨engine, ?_, hpos⟩
  rw [Tier.setEngine, Array.getElem?_setIfInBounds_ne (Ne.symm hk)]
  exact hengine

/-- Engines other than the one that loses a handle stay live. -/
theorem Live.dropEngine {k : Nat} (h : t.Live k) (hk : k ≠ e) : (t.dropEngine e).Live k := by
  rw [Tier.dropEngine]
  split
  · exact h
  · split
    · exact h.setEngine_ne hk _
    · exact Live.setEngine_ne (t := { t with codeMemory := _ }) h hk _

/-! ## The installed engine -/

theorem installed_compileNow {s : LoadedScript} (hscript : p.functions[id]? = some (.script s)) :
    (t.compileNow e id s.script).2.installed = t.installed := by
  have hrequested := requested t e id s.script
  generalize t.compileNow e id s.script = outcome, t.compileEvents e id s.script = events
    at hrequested
  cases hrequested with
  | absent hengine => rfl
  | compiled hengine hobtain | disabled hengine hobtain | failed hengine hobtain =>
    have hevolves := (evolves_obtain e (Array.mem_of_getElem? hengine) hscript).1
    rw [hobtain] at hevolves
    exact hevolves.installed

theorem installed_dropEngine : (t.dropEngine e).installed = t.installed := by
  rw [dropEngine]
  split
  · rfl
  · split <;> rfl

/-! ## Processes -/

/-- One operation, with its events.  Operations on an engine need a handle of it, those on other
holders are as the ledger allows. -/
inductive Step (p : Program) (l : Ledger) : Tier → List TierEvent → Tier → Prop where
  | addEngine {t : Tier} (config : EngineConfig) : Step p l t [] (t.addEngine config)
  | cloneEngine {t : Tier} {e : Nat} (hlive : t.Live e) : Step p l t [] (t.cloneEngine e)
  /-- A call keeps the engine that it goes through. -/
  | dropEngine {t : Tier} {e : Nat} (hlive : t.Live e) (hidle : t.installed ≠ some e) :
      Step p l t (t.dropEvents e) (t.dropEngine e)
  | compileNow {t : Tier} {e : Nat} {id : FunctionId} {s : LoadedScript} (hlive : t.Live e)
      (hscript : p.functions[id]? = some (.script s)) :
      Step p l t (t.compileEvents e id s.script) (t.compileNow e id s.script).2
  | invalidate {t : Tier} {e : Nat} {id : FunctionId} {s : LoadedScript} (hlive : t.Live e)
      (hscript : p.functions[id]? = some (.script s)) :
      Step p l t [.invalidated e id] (t.invalidate e id)
  | clearCache {t : Tier} {e : Nat} (hlive : t.Live e) : Step p l t [.cleared e] (t.clearCache e)
  /-- A function is claimed for compilation, but not by an engine. -/
  | claim {t : Tier} {id : FunctionId} {s : LoadedScript}
      (hscript : p.functions[id]? = some (.script s)) : Step p l t [] (t.claimed id)
  | install {t : Tier} {e : Nat} (hlive : t.Live e) : Step p l t [] (install e t)
  | restore {before t : Tier} (hlive : ∀ e, before.installed = some e → t.Live e) :
      Step p l t [] (restore before t)
  | choose {t : Tier} {id : FunctionId} {s : LoadedScript}
      (hscript : p.functions[id]? = some (.script s)) (c : Counters) :
      Step p l t (t.chooseEvents id s.script c) (choose id s.script c t).2
  /-- Somebody asks for the code memory. -/
  | acquire {t : Tier} {k : Nat} (hfresh : ¬ l.Holds (.direct k)) (level : OptLevel) :
      Step p l t [.acquired (.direct k) level]
        { t with codeMemory := t.codeMemory.acquire level }
  /-- Somebody keeps code that an engine has, compiles with a code memory that is held, or takes
  another handle of what is held. -/
  | share {t : Tier} {h source : Holder} (houtside : h.Outside) (hfresh : ¬ l.Holds h)
      (hsource : l.Holds source) :
      Step p l t [.shared h source] { t with codeMemory := t.codeMemory.retain 1 }
  | drop {t : Tier} {h : Holder} (houtside : h.Outside) (hheld : l.Holds h) :
      Step p l t [.dropped h] { t with codeMemory := t.codeMemory.release 1 }

/-- The states that a process comes to, each with the log of the events that led to it. -/
inductive Process (p : Program) : Tier → List TierEvent → Prop where
  | start : Process p { flags := Array.replicate p.size {} } []
  | step {t t' : Tier} {log events : List TierEvent} (h : Process p t log)
      (hstep : Step p (.of log) t events t') : Process p t' (events ++ log)

/-- The engine that calls go through is live. -/
theorem live_of_installed {log : List TierEvent} (h : Process p t log)
    (hinstalled : t.installed = some e) : t.Live e := by
  induction h generalizing e with
  | start => cases hinstalled
  | @step t t' log events _ hstep ih =>
    cases hstep with
    | addEngine config =>
      obtain ⟨engine, hengine, hhandles⟩ := ih hinstalled
      refine ⟨engine, ?_, hhandles⟩
      obtain ⟨hlt, _⟩ := Array.getElem?_eq_some_iff.1 hengine
      rw [addEngine, Array.getElem?_push_lt hlt]
      exact (Array.getElem?_eq_getElem hlt).symm.trans hengine
    | cloneEngine hlive =>
      obtain ⟨engine, hengine, _⟩ := hlive
      simp only [cloneEngine, hengine] at hinstalled ⊢
      exact (ih hinstalled).setEngine hengine (Nat.le_succ _)
    | dropEngine hlive hidle =>
      rw [installed_dropEngine] at hinstalled
      refine (ih hinstalled).dropEngine ?_
      rintro rfl
      exact hidle hinstalled
    | compileNow hlive hscript =>
      rw [installed_compileNow hscript] at hinstalled
      exact (ih hinstalled).compileNow
    | invalidate hlive hscript =>
      obtain ⟨engine, hengine, _⟩ := hlive
      simp only [invalidate, hengine] at hinstalled ⊢
      exact (ih hinstalled).setEngine hengine (Nat.le_refl _)
    | clearCache hlive =>
      obtain ⟨engine, hengine, _⟩ := hlive
      simp only [clearCache, hengine] at hinstalled ⊢
      exact Live.setEngine (t := { t with codeMemory := _ }) (ih hinstalled) hengine (Nat.le_refl _)
    | claim hscript => exact ih hinstalled
    | install hlive =>
      cases hinstalled
      exact hlive
    | restore hlive => exact hlive e hinstalled
    | choose hscript c =>
      rw [(evolves_choose hscript c t).1.installed] at hinstalled
      exact (ih hinstalled).choose
    | acquire hfresh level => exact ih hinstalled
    | share houtside hfresh hsource => exact ih hinstalled
    | drop houtside hheld => exact ih hinstalled

/-! ## Calls -/

/-- A moment of a call in a process: the log has grown, the engines in a set `A` are live, and calls
are routed through one of them if through any. -/
structure Calling (p : Program) (log : List TierEvent) (A : Nat → Prop) (t : Tier) : Prop where
  process : ∃ events, Process p t (events ++ log)
  live : ∀ e, A e → t.Live e
  installed : ∀ e, t.installed = some e → A e

variable {log : List TierEvent} {A : Nat → Prop}

theorem Calling.step {events : List TierEvent} (h : Calling p log A t)
    (hstep : ∀ l, Step p l t events t') (hlive : ∀ e, A e → t'.Live e)
    (hinstalled : ∀ e, t'.installed = some e → A e) : Calling p log A t' := by
  obtain ⟨earlier, hprocess⟩ := h.process
  refine ⟨⟨events ++ earlier, ?_⟩, hlive, hinstalled⟩
  rw [List.append_assoc]
  exact hprocess.step (hstep _)

theorem Calling.install (h : Calling p log A t) (he : A e) : Calling p log A (install e t) := by
  refine h.step (fun _ => .install (h.live e he)) h.live ?_
  rintro e' ⟨⟩
  exact he

theorem Calling.restore {before : Tier} (h : Calling p log A t)
    (hbefore : ∀ e, before.installed = some e → A e) : Calling p log A (restore before t) :=
  h.step (fun _ => .restore fun e he => h.live e (hbefore e he)) h.live hbefore

/-- Invocations pass through states of the process if the engines that native functions go through
are among those in the set. -/
theorem calling_respects (log : List TierEvent) (hnatives : ∀ e, p.CallsVia (some e) → A e) :
    Tier.dispatcher.Respects p (Calling p log A) where
  choose {id s c t} hscript h := by
    refine h.step (fun _ => .choose hscript c) (fun e he => (h.live e he).choose) ?_
    intro e he
    refine h.installed e ?_
    rw [← (evolves_choose hscript c t).1.installed]
    exact he
  install hvia h := h.install (hnatives _ hvia)
  restore hbefore h := h.restore hbefore.installed

/-- The engines that a call can go through: the one that is installed, those of native functions,
and the one that the call is made through. -/
def callEngines (p : Program) (t : Tier) (via : Option Nat) (e : Nat) : Prop :=
  t.installed = some e ∨ p.CallsVia (some e) ∨ via = some e

/-- The state in which a call starts that is made through engine `via`, or without one. -/
theorem Process.calling {amb : Ambient Tier} (h : Process p amb.tier log) {via : Option Nat}
    (hvia : ∀ e, via = some e → amb.tier.Live e)
    (hnatives : ∀ e, p.CallsVia (some e) → amb.tier.Live e) :
    Calling p log (amb.tier.callEngines p via) (Tier.dispatcher.outgoing via amb).tier := by
  have hstart : Calling p log (amb.tier.callEngines p via) amb.tier := by
    refine ⟨⟨[], h⟩, ?_, fun e he => .inl he⟩
    rintro e (he | he | he)
    · exact live_of_installed h he
    · exact hnatives e he
    · exact hvia e he
  cases via with
  | none => exact hstart
  | some e => exact hstart.install (.inr (.inr rfl))

end Tier

open Tier

variable {log : List TierEvent} {amb : Ambient Tier} {via : Option Nat}

section

variable (h : Process p amb.tier log) (hvia : ∀ e, via = some e → amb.tier.Live e)
  (hnatives : ∀ e, p.CallsVia (some e) → amb.tier.Live e)

include h hvia hnatives

/-- A call, through a live engine or without one, leads to a state of the process. -/
theorem process_of_call {fuel : Nat} {id : FunctionId} {args : List Argument}
    {slots : ReturnSlots} {memory : Memory} {r : Result Tier}
    (hcall : invoke p Tier.dispatcher fuel id args slots memory
      (Tier.dispatcher.outgoing via amb) = .ok r) :
    ∃ events, Process p (Tier.dispatcher.returning via amb r.ambient).tier (events ++ log) := by
  have hrespects := calling_respects (A := amb.tier.callEngines p via) log
    fun e he => .inr (.inl he)
  have hafter := invoke_respects hrespects fuel hcall (h.calling hvia hnatives)
  cases via with
  | none => exact hafter.process
  | some e => exact (hafter.restore fun e' he' => .inl he').process

/-- At every moment of a call, however deeply nested and whether it ends or not, the engines are in
a state of the process. -/
theorem process_of_moment {v w : Invocation Tier} {moment : Ambient Tier}
    (hv : v.ambient = Tier.dispatcher.outgoing via amb) (hwithin : Within p Tier.dispatcher v w)
    (hvisits : Visits p Tier.dispatcher w moment) :
    ∃ events, Process p moment.tier (events ++ log) := by
  have hrespects := calling_respects (A := amb.tier.callEngines p via) log
    fun e he => .inr (.inl he)
  have hstart : Calling p log (amb.tier.callEngines p via) v.ambient.tier := by
    rw [hv]
    exact h.calling hvia hnatives
  exact (visits_respects hrespects hvisits (within_respects hrespects hwithin hstart)).process

end

/-- A call through a live engine leads to a state of the process. -/
theorem process_of_engineCall (h : Process p amb.tier log) {e : Nat} (hlive : amb.tier.Live e)
    (hnatives : ∀ e, p.CallsVia (some e) → amb.tier.Live e) {fuel : Nat} {id : FunctionId}
    {args : List Argument} {slots : ReturnSlots} {memory : Memory} {r : Result Tier}
    (hcall : engineCall p fuel e id args slots memory amb = .ok r) :
    ∃ events, Process p r.ambient.tier (events ++ log) := by
  rw [engineCall] at hcall
  split at hcall
  · cases hcall
  · rename_i inner hrun
    cases hcall
    have hvia : ∀ e', some e = some e' → amb.tier.Live e' := by
      rintro _ ⟨⟩
      exact hlive
    exact process_of_call h hvia hnatives hrun

end TierVm
