import TierVm.Proofs.HotFunctions
import TierVm.Proofs.Traces

/-!
# At most one compilation in an epoch

An engine compiles a function by itself when the function is called and has become hot.  Three flags
keep this from happening over and over again.  All engines share them, and only invalidating the
function takes them back, so the time between two invalidations of a function is an epoch: within
one, at most one engine starts to compile it.

* `Tier.Starting` are the conditions under which a compilation starts, and `Tier.HotPath` says what
  a call of a script comes to: nothing, or a compilation that starts and ends, with flags that tell
  how it ended.
* `Tier.EpochStep` sorts operations by what they mean for the epoch of a function, `epoch_step`
  does so for all operations, and `epochs_of_process` is the induction over the process.
* `claimed_of_step`: only somebody who claims a function leaves it claimed.
* `tierLog` is the log with the events of a call, read off its trace, and `engineCall_logged` says
  that it is the log of the process behind the call.
* `one_start_per_epoch` puts the pieces together.
-/

namespace TierVm

variable {p : Program} {log events : List TierEvent} {e : Nat} {id j : FunctionId}

/-! ## Starts in a log -/

namespace TierEvent

/-- An engine starts to compile the function. -/
def starts (id : FunctionId) : TierEvent → Bool
  | .started _ k => k = id
  | _ => false

/-- Compiling the function ends, with code or without. -/
def ends (id : FunctionId) (event : TierEvent) : Bool := event.compiles id || event.fails id

end TierEvent

/-- How often compiling a function was started since it was last invalidated. -/
def startsSince (id : FunctionId) (log : List TierEvent) : Nat :=
  (sinceInvalidated id log).countP (·.starts id)

/-- Whether compiling a function has ended since it was last invalidated. -/
def endedSince (id : FunctionId) (log : List TierEvent) : Bool :=
  (sinceInvalidated id log).any (·.ends id)

theorem endedSince_eq (id : FunctionId) (log : List TierEvent) :
    endedSince id log = (compiledSince id log || failedSince id log) := by
  rw [Bool.eq_iff_iff]
  simp [endedSince, compiledSince, failedSince, TierEvent.ends, and_or_left, exists_or]

/-- Events among which the function is not invalidated belong to its current epoch. -/
theorem sinceInvalidated_append (h : ∀ event ∈ events, event.invalidates id = false) :
    sinceInvalidated id (events ++ log) = events ++ sinceInvalidated id log := by
  rw [sinceInvalidated, List.takeWhile_append_of_pos, sinceInvalidated]
  intro event hevent
  rw [h event hevent]
  rfl

theorem startsSince_append (h : ∀ event ∈ events, event.invalidates id = false) :
    startsSince id (events ++ log) = events.countP (·.starts id) + startsSince id log := by
  rw [startsSince, sinceInvalidated_append h, List.countP_append, startsSince]

theorem endedSince_append (h : ∀ event ∈ events, event.invalidates id = false) :
    endedSince id (events ++ log) = (events.any (·.ends id) || endedSince id log) := by
  rw [endedSince, sinceInvalidated_append h, List.any_append, endedSince]

theorem startsSince_invalidated : startsSince id (.invalidated e id :: log) = 0 := by
  rw [startsSince, sinceInvalidated, List.takeWhile_cons]
  simp [TierEvent.invalidates]

namespace Tier

variable {t t' : Tier} {engine : Engine} {s : Script} {c : Counters}

/-! ## The hot path -/

/-- The conditions under which engine `e` starts to compile a function that is called: calls go
through it, it is enabled and has no code for the function, and the function is short enough and
hot.  Nobody has claimed the function, and its epoch has seen neither code nor a failure. -/
structure Starting (t : Tier) (id : FunctionId) (s : Script) (c : Counters) (e : Nat)
    (engine : Engine) : Prop where
  installed : t.installed = some e
  present : t.engines[e]? = some engine
  enabled : engine.config.enabled = true
  missing : engine.cache.get? id = none
  size : s.code.size ≤ engine.config.policy.maxFunctionSize
  hot : engine.config.policy.callThreshold ≤ c.calls ∨
    engine.config.policy.loopThreshold ≤ c.loops
  untouched : t.flagsOf id = {}

theorem starts_iff : t.starts engine id s c = true ↔
    engine.config.enabled = true ∧ engine.cache.get? id = none ∧
      s.code.size ≤ engine.config.policy.maxFunctionSize ∧
      (engine.config.policy.callThreshold ≤ c.calls ∨
        engine.config.policy.loopThreshold ≤ c.loops) ∧ t.flagsOf id = {} := by
  rcases hflags : t.flagsOf id with ⟨compiling, available, failed⟩
  simp only [starts, CompilationPolicy.shouldCompile, Flags.tryStart, hflags]
  cases compiling <;> cases available <;> cases failed <;> simp [and_assoc]

/-- What a call of a script comes to, as far as compiling the script is concerned. -/
inductive HotPath (t : Tier) (id : FunctionId) (s : Script) (c : Counters) :
    Option CompiledCode × Tier → List TierEvent → Prop where
  /-- Nothing starts, and nothing changes. -/
  | idle {code : Option CompiledCode} (h : ∀ e engine, ¬ t.Starting id s c e engine) :
      HotPath t id s c (code, t) []
  /-- A compilation starts.  When it has ended nobody has claimed the function, and its flags tell
  whether there is code. -/
  | starts {e : Nat} {engine : Engine} {code : Option CompiledCode} {t' : Tier}
      (h : t.Starting id s c e engine)
      (hcode : ((t.claimed id).obtain e engine id s).1.toOption = code)
      (hflags : ∀ j, t'.flagsOf j =
        if j = id then { available := code.isSome, failed := code.isNone } else t.flagsOf j) :
      HotPath t id s c (code, t')
        ((if code.isSome then .compiled e id else .failed e id) ::
          (obtainEvents e engine id s ++ [.started e id]))

/-- Flags after a compilation. -/
theorem flagsOf_compilation (hid : id < t.flags.size) (huntouched : t.flagsOf id = {})
    {outcome : Except CompileError CompiledCode}
    (hobtain : (t.claimed id).obtain e engine id s = (outcome, t')) {f : Flags → Flags}
    {flags : Flags} (hf : f { compiling := true } = flags) (j : FunctionId) :
    (t'.setFlags id f).flagsOf j = if j = id then flags else t.flagsOf j := by
  have hflags : t'.flags = (t.claimed id).flags := by
    have hflags := flags_obtain (t.claimed id) e engine id s
    rw [hobtain] at hflags
    exact hflags
  have hsame : ∀ k, t'.flagsOf k = if k = id then { compiling := true } else t.flagsOf k := by
    intro k
    rw [flagsOf, hflags, ← flagsOf, claimed, flagsOf_setFlags hid, huntouched]
    rfl
  have hsize : id < t'.flags.size := by simpa [hflags, claimed, setFlags] using hid
  rw [flagsOf_setFlags hsize, hsame, if_pos rfl, hf, hsame]
  split <;> rfl

theorem hotPath (hid : id < t.flags.size) (s : Script) (c : Counters) :
    HotPath t id s c (choose id s c t) (t.chooseEvents id s c) := by
  rw [choose, chooseEvents]
  cases hinstalled : t.installed with
  | none =>
    refine .idle fun e engine h => ?_
    cases hinstalled.symm.trans h.installed
  | some e =>
    cases hengine : t.engines[e]? with
    | none =>
      simp only [hengine]
      refine .idle fun e' engine h => ?_
      cases hinstalled.symm.trans h.installed
      cases hengine.symm.trans h.present
    | some engine =>
      simp only [hengine, chooseIn_eq]
      cases hstarts : t.starts engine id s c with
      | false =>
        refine .idle fun e' engine' h => ?_
        cases hinstalled.symm.trans h.installed
        cases hengine.symm.trans h.present
        have hall := starts_iff.2 ⟨h.enabled, h.missing, h.size, h.hot, h.untouched⟩
        cases hstarts.symm.trans hall
      | true =>
        obtain ⟨henabled, hmissing, hsize, hhot, huntouched⟩ := starts_iff.1 hstarts
        have hstarting : t.Starting id s c e engine :=
          ⟨hinstalled, hengine, henabled, hmissing, hsize, hhot, huntouched⟩
        cases hobtain : (t.claimed id).obtain e engine id s with
        | mk outcome t' =>
          cases outcome with
          | ok code =>
            have hcode : ((t.claimed id).obtain e engine id s).1.toOption = some code := by
              rw [hobtain]
              rfl
            exact .starts hstarting hcode (flagsOf_compilation hid huntouched hobtain rfl)
          | error err =>
            have hcode : ((t.claimed id).obtain e engine id s).1.toOption = none := by
              rw [hobtain]
              rfl
            exact .starts hstarting hcode (flagsOf_compilation hid huntouched hobtain rfl)

/-! ## Epochs -/

/-- What the events of an operation in state `t` mean for the epoch of a function. -/
inductive EpochStep (id : FunctionId) (t : Tier) : List TierEvent → Prop where
  | quiet {events : List TierEvent}
      (h : ∀ event ∈ events, event.starts id = false ∧ event.invalidates id = false) :
      EpochStep id t events
  | invalidated (e : Nat) : EpochStep id t [.invalidated e id]
  /-- A compilation starts, once, and ends. -/
  | compiled {events : List TierEvent} (hid : id < t.flags.size) (huntouched : t.flagsOf id = {})
      (hkept : ∀ event ∈ events, event.invalidates id = false)
      (hstarts : events.countP (·.starts id) = 1) (hended : events.any (·.ends id) = true) :
      EpochStep id t events

/-- Obtaining code is only about the code memory. -/
theorem quiet_obtainEvents : ∀ event ∈ obtainEvents e engine j s,
    event.starts id = false ∧ event.invalidates id = false := by
  have hobtained := obtained {} e engine j s
  generalize ({} : Tier).obtain e engine j s = outcome, obtainEvents e engine j s = events
    at hobtained
  have hreach : ∀ event ∈ reachEvents e engine j,
      event.starts id = false ∧ event.invalidates id = false := by
    rw [reachEvents]
    split <;> simp [TierEvent.starts, TierEvent.invalidates]
  cases hobtained with
  | disabled hdisabled => simp
  | cached henabled hget => simp
  | refused henabled hget hrefused => exact hreach
  | stored henabled hget hcompile hinsert => exact List.forall_mem_cons.2 ⟨⟨rfl, rfl⟩, hreach⟩

theorem epochStep_compileNow (t : Tier) (e : Nat) (s : Script) :
    EpochStep id t (t.compileEvents e j s) := by
  have hrequested := requested t e j s
  generalize t.compileNow e j s = outcome, t.compileEvents e j s = events at hrequested
  cases hrequested with
  | absent hengine => exact .quiet (by simp)
  | compiled hengine hobtain | failed hengine hobtain =>
    exact .quiet (List.forall_mem_cons.2 ⟨⟨rfl, rfl⟩, quiet_obtainEvents⟩)
  | disabled hengine hobtain => exact .quiet quiet_obtainEvents

theorem epochStep_choose (hj : j < t.flags.size) (s : Script) (c : Counters) :
    EpochStep id t (t.chooseEvents j s c) := by
  have hpath := hotPath hj s c
  generalize choose j s c t = outcome, t.chooseEvents j s c = events at hpath
  cases hpath with
  | idle h => exact .quiet (by simp)
  | @starts e engine code t' h hcode hflags =>
    have hlast : ∀ b : Bool, (if b then TierEvent.compiled e j else .failed e j).starts id = false ∧
        (if b then TierEvent.compiled e j else .failed e j).invalidates id = false := by
      intro b
      cases b <;> exact ⟨rfl, rfl⟩
    by_cases hid : j = id
    · subst hid
      have hnone : (obtainEvents e engine j s).countP (·.starts j) = 0 :=
        List.countP_eq_zero.2 fun event hevent => by simp [(quiet_obtainEvents event hevent).1]
      refine .compiled hj h.untouched ?_ ?_ ?_
      · rw [List.forall_mem_cons, List.forall_mem_append]
        exact ⟨(hlast _).2, fun event hevent => (quiet_obtainEvents event hevent).2,
          by simp [TierEvent.invalidates]⟩
      · rw [List.countP_cons, List.countP_append, hnone, (hlast _).1]
        simp [TierEvent.starts]
      · cases code <;> simp [TierEvent.ends, TierEvent.compiles, TierEvent.fails]
    · refine .quiet ?_
      rw [List.forall_mem_cons, List.forall_mem_append]
      refine ⟨hlast _, quiet_obtainEvents, ?_⟩
      simp [TierEvent.starts, TierEvent.invalidates, hid]

/-- Every operation on engines fits. -/
theorem epoch_step {l : Ledger} (hsize : t.flags.size = p.size) (hstep : Step p l t events t')
    (id : FunctionId) : EpochStep id t events := by
  cases hstep with
  | addEngine | cloneEngine | claim | install | restore => exact .quiet (by simp)
  | dropEngine hlive hidle =>
    obtain ⟨engine, hengine, _⟩ := hlive
    simp only [dropEvents, hengine]
    split
    · exact .quiet (by simp)
    · exact .quiet (by simp [TierEvent.starts, TierEvent.invalidates])
  | compileNow hlive hscript => exact epochStep_compileNow t _ _
  | @invalidate _ e j s hlive hscript =>
    by_cases hid : j = id
    · rw [hid]
      exact .invalidated e
    · exact .quiet (by simp [TierEvent.starts, TierEvent.invalidates, hid])
  | choose hscript c => exact epochStep_choose (hsize ▸ lt_size_of_script hscript) _ c
  | clearCache | acquire | share | drop =>
    exact .quiet (by simp [TierEvent.starts, TierEvent.invalidates])

/-- In every epoch of a function, also in those that are over, compiling it was started at most
once, and what was started has ended. -/
structure EpochsOf (id : FunctionId) (log : List TierEvent) : Prop where
  once : ∀ rest, rest <:+ log → startsSince id rest ≤ 1
  ended : 0 < startsSince id log → endedSince id log = true

/-- A part of a longer log is a part of the old log, or it goes into what was added. -/
theorem suffix_cases {rest : List TierEvent} (h : rest <:+ events ++ log) :
    rest <:+ log ∨ ∃ added, added <:+ events ∧ rest = added ++ log := by
  rcases List.suffix_or_suffix_of_suffix h (List.suffix_append events log) with hold | hlong
  · exact .inl hold
  · obtain ⟨added, rfl⟩ := hlong
    obtain ⟨front, hfront⟩ := h
    refine .inr ⟨added, ⟨front, ?_⟩, rfl⟩
    exact List.append_cancel_right (hfront ▸ List.append_assoc front added log)

/-- Events in the current epoch, if no compilation starts behind another one of the epoch. -/
theorem EpochsOf.append (h : EpochsOf id log)
    (hkept : ∀ event ∈ events, event.invalidates id = false)
    (honce : events.countP (·.starts id) + startsSince id log ≤ 1)
    (hended : 0 < events.countP (·.starts id) → events.any (·.ends id) = true) :
    EpochsOf id (events ++ log) := by
  refine ⟨?_, ?_⟩
  · intro rest hrest
    rcases suffix_cases hrest with hold | ⟨added, hadded, rfl⟩
    · exact h.once rest hold
    · have hfewer : added.countP (·.starts id) ≤ events.countP (·.starts id) :=
        hadded.sublist.countP_le
      rw [startsSince_append fun event hevent => hkept event (hadded.subset hevent)]
      omega
  · intro hpos
    rw [startsSince_append hkept] at hpos
    rw [endedSince_append hkept]
    rcases Nat.eq_zero_or_pos (events.countP (·.starts id)) with hzero | hstarted
    · rw [h.ended (by omega), Bool.or_true]
    · rw [hended hstarted, Bool.true_or]

theorem EpochsOf.step (h : EpochsOf id log) (hstep : EpochStep id t events)
    (huntouched : id < t.flags.size → t.flagsOf id = {} → endedSince id log = false) :
    EpochsOf id (events ++ log) := by
  cases hstep with
  | quiet hquiet =>
    have hnone : events.countP (·.starts id) = 0 := by
      rw [List.countP_eq_zero]
      intro event hevent
      simp [(hquiet event hevent).1]
    refine h.append (fun event hevent => (hquiet event hevent).2) ?_ ?_
    · rw [hnone, Nat.zero_add]
      exact h.once log List.suffix_rfl
    · omega
  | invalidated e =>
    refine ⟨?_, ?_⟩
    · intro rest hrest
      rcases List.suffix_cons_iff.1 hrest with rfl | hold
      · rw [startsSince_invalidated]
        exact Nat.zero_le 1
      · exact h.once rest hold
    · intro hpos
      rw [List.singleton_append, startsSince_invalidated] at hpos
      cases hpos
  | compiled hid hflags hkept hstarts hended =>
    -- Whatever was started before would have ended, and the flags would tell.
    have hzero : startsSince id log = 0 := by
      rcases Nat.eq_zero_or_pos (startsSince id log) with hzero | hpos
      · exact hzero
      · cases (huntouched hid hflags).symm.trans (h.ended hpos)
    refine h.append hkept ?_ fun _ => hended
    omega

theorem epochs_of_process (id : FunctionId) (h : Process p t log) : EpochsOf id log := by
  induction h with
  | start =>
    refine ⟨?_, ?_⟩
    · intro rest hrest
      rw [List.suffix_nil.1 hrest]
      exact Nat.zero_le 1
    · intro hpos
      cases hpos
  | @step t t' log events hprocess hstep ih =>
    have hflagged := flagged_of_process hprocess
    refine ih.step (epoch_step hflagged.size hstep id) ?_
    intro hid huntouched
    rw [hflagged.size] at hid
    rw [endedSince_eq, ← hflagged.available id hid, ← hflagged.failed id hid, huntouched]
    rfl

/-! ## Claims -/

theorem compiling_setFlags {f : Flags → Flags} (hj : j < t.flags.size)
    (hf : ∀ flags, (f flags).compiling = flags.compiling) :
    ((t.setFlags j f).flagsOf id).compiling = (t.flagsOf id).compiling := by
  rw [flagsOf_setFlags hj]
  split
  · rename_i heq
    rw [hf, heq]
  · rfl

theorem compiling_compileNow (hj : j < t.flags.size) :
    ((t.compileNow e j s).2.flagsOf id).compiling = (t.flagsOf id).compiling := by
  have hrequested := requested t e j s
  generalize t.compileNow e j s = outcome, t.compileEvents e j s = events at hrequested
  have hflags : ∀ engine, (t.obtain e engine j s).2.flags = t.flags :=
    fun engine => flags_obtain t e engine j s
  cases hrequested with
  | absent hengine => rfl
  | @compiled engine _ t' hengine hobtain | @failed engine _ t' hengine hobtain =>
    have hsame := hflags engine
    rw [hobtain] at hsame
    refine (compiling_setFlags (hsame ▸ hj) ?_).trans ?_
    · exact fun _ => rfl
    · rw [flagsOf, hsame, flagsOf]
  | @disabled engine t' hengine hobtain =>
    have hsame := hflags engine
    rw [hobtain] at hsame
    rw [flagsOf, hsame, flagsOf]

/-- A call leaves nobody's claim behind. -/
theorem compiling_choose (hj : j < t.flags.size) (h : (t.flagsOf id).compiling = false) :
    ((choose j s c t).2.flagsOf id).compiling = false := by
  have hpath := hotPath hj s c
  generalize choose j s c t = outcome, t.chooseEvents j s c = events at hpath
  cases hpath with
  | idle _ => exact h
  | starts _ _ hflags =>
    rw [hflags]
    split
    · rfl
    · exact h

/-- A function comes to be claimed by somebody who claims it, and by no other operation. -/
theorem claimed_of_step {l : Ledger} (hsize : t.flags.size = p.size)
    (hstep : Step p l t events t') (hbefore : (t.flagsOf id).compiling = false)
    (hafter : (t'.flagsOf id).compiling = true) : t' = t.claimed id := by
  have hdone : (t'.flagsOf id).compiling = false → t' = t.claimed id := by
    intro hfalse
    cases hfalse.symm.trans hafter
  have hsame : t'.flags = t.flags → t' = t.claimed id := by
    intro hflags
    refine hdone ?_
    rw [flagsOf, hflags]
    exact hbefore
  cases hstep with
  | addEngine | install | restore | acquire | share | drop => exact hsame rfl
  | cloneEngine hlive =>
    obtain ⟨engine, hengine, _⟩ := hlive
    refine hsame ?_
    simp only [cloneEngine, hengine, setEngine]
  | dropEngine hlive hidle =>
    obtain ⟨engine, hengine, _⟩ := hlive
    refine hsame ?_
    simp only [dropEngine, hengine, setEngine]
    split <;> rfl
  | clearCache hlive =>
    obtain ⟨engine, hengine, _⟩ := hlive
    refine hsame ?_
    simp only [clearCache, hengine, setEngine]
  | @claim _ j s hscript =>
    by_cases hj : j = id
    · rw [hj]
    · refine hdone ?_
      rw [claimed, flagsOf_setFlags (hsize ▸ lt_size_of_script hscript), if_neg (Ne.symm hj)]
      exact hbefore
  | compileNow hlive hscript =>
    refine hdone ?_
    rw [compiling_compileNow (hsize ▸ lt_size_of_script hscript)]
    exact hbefore
  | @invalidate _ e j s hlive hscript =>
    obtain ⟨engine, hengine, _⟩ := hlive
    refine hdone ?_
    simp only [invalidate, hengine]
    refine (compiling_setFlags (hsize ▸ lt_size_of_script hscript) ?_).trans hbefore
    exact fun _ => rfl
  | choose hscript c =>
    exact hdone (compiling_choose (hsize ▸ lt_size_of_script hscript) hbefore)

/-! ## Calls -/

/-- What holds of compilations in a state that a process comes to with the given log. -/
structure Epochs (p : Program) (t : Tier) (log : List TierEvent) : Prop where
  /-- While a function is not invalidated, engines start to compile it at most once, all of them
  together. -/
  once : ∀ {id : FunctionId} {later stretch earlier : List TierEvent},
    log = later ++ stretch ++ earlier → (∀ event ∈ stretch, event.invalidates id = false) →
    stretch.countP (·.starts id) ≤ 1
  /-- What a call of a script does. -/
  hotPath : ∀ {id : FunctionId} {s : LoadedScript} (c : Counters),
    p.functions[id]? = some (.script s) →
    HotPath t id s.script c (choose id s.script c t) (t.chooseEvents id s.script c)
  /-- Nobody leaves a claim behind but who claims a function and does nothing else. -/
  claimed : ∀ {events : List TierEvent} {t' : Tier} {id : FunctionId},
    Step p (.of log) t events t' → (t.flagsOf id).compiling = false →
    (t'.flagsOf id).compiling = true → t' = t.claimed id

theorem EpochsOf.count_le (h : EpochsOf id log) {later stretch earlier : List TierEvent}
    (hlog : log = later ++ stretch ++ earlier)
    (hkept : ∀ event ∈ stretch, event.invalidates id = false) :
    stretch.countP (·.starts id) ≤ 1 := by
  have hsuffix : stretch ++ earlier <:+ log := ⟨later, by rw [hlog, List.append_assoc]⟩
  have honce := h.once _ hsuffix
  rw [startsSince_append hkept] at honce
  omega

theorem epochs (h : Process p t log) : t.Epochs p log where
  once hlog hkept := (epochs_of_process _ h).count_le hlog hkept
  hotPath c hscript :=
    Tier.hotPath ((flagged_of_process h).size ▸ lt_size_of_script hscript) _ c
  claimed hstep hbefore hafter :=
    claimed_of_step (flagged_of_process h).size hstep hbefore hafter

end Tier

open Tier

/-- What an event of a run means for the engines. -/
def RunEvent.tierEvents : RunEvent Tier → List TierEvent
  | .invoked id s before _ =>
    before.tier.chooseEvents id s ((before.countCall id).counters.getD id {})
  | .looped _ => []

/-- The log of a process after a run with the given trace. -/
def tierLog (trace : List (RunEvent Tier)) (log : List TierEvent) : List TierEvent :=
  trace.foldl (fun log event => event.tierEvents ++ log) log

/-- A moment of a call that was made in state `t₀`: the log of the process has grown by the events
of the trace, and nothing is claimed that was not. -/
structure Logged (p : Program) (t₀ : Tier) (log : List TierEvent) (A : Nat → Prop)
    (trace : List (RunEvent Tier)) (t : Tier) : Prop where
  process : Process p t (tierLog trace log)
  calling : Calling p log A t
  unclaimed : ∀ id, (t₀.flagsOf id).compiling = false → (t.flagsOf id).compiling = false

theorem tierLog_concat (trace : List (RunEvent Tier)) (event : RunEvent Tier) :
    tierLog (trace ++ [event]) log = event.tierEvents ++ tierLog trace log := by
  rw [tierLog, List.foldl_append]
  rfl

/-- Calls pass through states of the process, and its log grows by the events of their trace. -/
theorem logged_observes (t₀ : Tier) (log : List TierEvent) {A : Nat → Prop}
    (hnatives : ∀ e, p.CallsVia (some e) → A e) :
    Tier.dispatcher.Observes p fun trace _ t => Logged p t₀ log A trace t where
  invoke {trace amb id s} hscript h := by
    have hsize : id < amb.tier.flags.size := by
      rw [(flagged_of_process h.process).size]
      exact lt_size_of_script hscript
    refine ⟨?_, (calling_respects log hnatives).choose hscript h.calling, ?_⟩
    · rw [tierLog_concat]
      exact h.process.step (.choose hscript _)
    · intro j hj
      exact compiling_choose hsize (h.unclaimed j hj)
  loop {trace counters t id} h := by
    refine ⟨?_, h.calling, h.unclaimed⟩
    rw [tierLog_concat]
    exact h.process
  install hvia h := by
    have hcalling := (calling_respects log hnatives).install hvia h.calling
    exact ⟨h.process.step (.install (h.calling.live _ (hnatives _ hvia))), hcalling, h.unclaimed⟩
  restore hbefore h := by
    have hinstalled := hbefore.calling.installed
    refine ⟨h.process.step (.restore ?_), h.calling.restore hinstalled, h.unclaimed⟩
    intro e he
    exact h.calling.live e (hinstalled e he)

/-- The trace of a call through an engine. -/
def engineCallTrace (p : Program) (fuel e : Nat) (id : FunctionId) (args : List Argument)
    (slots : ReturnSlots) (memory : Memory) (amb : Ambient Tier) : List (RunEvent Tier) :=
  invokeTrace p Tier.dispatcher fuel id args slots memory
    { amb with tier := amb.tier.install e }

section

variable {amb : Ambient Tier} (h : Process p amb.tier log) (hlive : amb.tier.Live e)
  (hnatives : ∀ e, p.CallsVia (some e) → amb.tier.Live e)

include h hlive hnatives

theorem engineCall_logged (fuel : Nat) (id : FunctionId) (args : List Argument)
    (slots : ReturnSlots) (memory : Memory) :
    Observed (fun trace _ t => Logged p amb.tier log (amb.tier.callEngines p (some e)) trace t)
      (engineCallTrace p fuel e id args slots memory amb)
      (invoke p Tier.dispatcher fuel id args slots memory
        { amb with tier := amb.tier.install e }) := by
  have hvia : ∀ e', some e = some e' → amb.tier.Live e' := by
    rintro _ ⟨⟩
    exact hlive
  have hobserves := logged_observes amb.tier log
    (A := amb.tier.callEngines p (some e)) fun e he => .inr (.inl he)
  have hfirst : Logged p amb.tier log (amb.tier.callEngines p (some e)) []
      (amb.tier.install e) :=
    ⟨h.step (.install hlive), h.calling hvia hnatives, fun _ hj => hj⟩
  exact invoke_observes hobserves fuel id args slots memory
    { amb with tier := amb.tier.install e } hfirst

end

/-- Between two invalidations of a function, all engines together start at most one compilation of
it by themselves.  Such a compilation needs what `Tier.Starting` says and ends as `Tier.HotPath`
says, and only claiming a function leaves it claimed.  That is so in every state that a process
comes to by any operations on engines, and a call is part of the process with all that is nested in
it: the log grows by the events of its trace, also if it does not come to an end, and it leaves
nothing claimed. -/
theorem one_start_per_epoch (p : Program) :
    (∀ {t : Tier} {log : List TierEvent}, Process p t log → t.Epochs p log) ∧
      ∀ {amb : Ambient Tier} {log : List TierEvent} {e : Nat},
        Process p amb.tier log → amb.tier.Live e →
        (∀ e, p.CallsVia (some e) → amb.tier.Live e) →
        ∀ (fuel : Nat) (id : FunctionId) (args : List Argument) (slots : ReturnSlots)
          (memory : Memory),
          (∃ t, Process p t
            (tierLog (engineCallTrace p fuel e id args slots memory amb) log)) ∧
          ∀ {r : Result Tier}, engineCall p fuel e id args slots memory amb = .ok r →
            Process p r.ambient.tier
              (tierLog (engineCallTrace p fuel e id args slots memory amb) log) ∧
            ∀ j, (amb.tier.flagsOf j).compiling = false →
              (r.ambient.tier.flagsOf j).compiling = false := by
  refine ⟨epochs, ?_⟩
  intro amb log e h hlive hnatives fuel id args slots memory
  have hlogged := engineCall_logged h hlive hnatives fuel id args slots memory
  refine ⟨?_, ?_⟩
  · obtain ⟨_, t, ht⟩ := hlogged.exists
    exact ⟨t, ht.process⟩
  · intro r hcall
    rw [engineCall] at hcall
    split at hcall
    · cases hcall
    · rename_i inner hrun
      cases hcall
      rw [hrun] at hlogged
      refine ⟨hlogged.process.step (.restore ?_), hlogged.unclaimed⟩
      intro e' he'
      exact hlogged.calling.live e' (.inl he')

/-- The state around calls, once an engine has invalidated a function. -/
def Ambient.invalidate (amb : Ambient Tier) (e : Nat) (id : FunctionId) : Ambient Tier :=
  { amb with tier := amb.tier.invalidate e id }

/-- An engine that compiles every function at once is called twice, and the function is invalidated
in between.  Both calls start a compilation, in an epoch of its own each. -/
theorem one_start_per_epoch_twoCalls :
    ∃ (first second : Result Tier) (log₁ log₂ : List TierEvent),
      engineCall emptyScript 2 0 0 [] (.fresh []) {} eagerAmbient = .ok first ∧
        Process emptyScript first.ambient.tier log₁ ∧ log₁.countP (·.starts 0) = 1 ∧
        engineCall emptyScript 2 0 0 [] (.fresh []) {} (first.ambient.invalidate 0 0) = .ok second ∧
        Process emptyScript second.ambient.tier log₂ ∧ log₂.countP (·.starts 0) = 2 ∧
        second.ambient.tier.Epochs emptyScript log₂ ∧
        second.ambient.tier.flagsOf 0 = { available := true } := by
  obtain ⟨hepochs, hcalls⟩ := one_start_per_epoch emptyScript
  have hnatives : ∀ t : Tier, ∀ e, emptyScript.CallsVia (some e) → t.Live e :=
    fun t e he => absurd he (not_callsVia_emptyScript _)
  have hlive : eagerTier.Live 0 := ⟨_, rfl, by decide⟩
  have hscript : emptyScript.functions[0]? = some (.script emptyFunction) := rfl
  let log₁ := tierLog (engineCallTrace emptyScript 2 0 0 [] (.fresh []) {} eagerAmbient) []
  obtain ⟨first, second, hfirst, hlive₁, hsecond, hlive₂, hcount₂, hflags⟩ : ∃ first second,
      engineCall emptyScript 2 0 0 [] (.fresh []) {} eagerAmbient = .ok first ∧
        first.ambient.tier.Live 0 ∧
        engineCall emptyScript 2 0 0 [] (.fresh []) {} (first.ambient.invalidate 0 0) =
          .ok second ∧
        (first.ambient.invalidate 0 0).tier.Live 0 ∧
        (tierLog (engineCallTrace emptyScript 2 0 0 [] (.fresh []) {}
          (first.ambient.invalidate 0 0)) ([.invalidated 0 0] ++ log₁)).countP (·.starts 0) = 2 ∧
        second.ambient.tier.flagsOf 0 = { available := true } :=
    ⟨_, _, rfl, ⟨_, rfl, Nat.zero_lt_one⟩, rfl, ⟨_, rfl, Nat.zero_lt_one⟩, rfl, rfl⟩
  have hprocess₁ : Process emptyScript first.ambient.tier log₁ :=
    ((hcalls process_eagerTier hlive (hnatives _) 2 0 [] (.fresh []) {}).2 hfirst).1
  have hinvalidated : Process emptyScript (first.ambient.invalidate 0 0).tier
      ([.invalidated 0 0] ++ log₁) := hprocess₁.step (.invalidate hlive₁ hscript)
  have hprocess₂ :=
    ((hcalls hinvalidated hlive₂ (hnatives _) 2 0 [] (.fresh []) {}).2 hsecond).1
  exact ⟨first, second, _, _, hfirst, hprocess₁, rfl, hsecond, hprocess₂, hcount₂,
    hepochs hprocess₂, hflags⟩

end TierVm
