import TierVm.Proofs.CompilationEpochs

/-!
# When a function is compiled

The counters of a function grow at any depth of nesting: with every invocation, and with every
backward jump of an interpreted activation, also of one that is still under way while the function
is invoked again.  This module says at which invocation the function goes over to compiled code when
all calls go through one engine.

* `CallHistory` is what a trace tells of a function: its invocations, each with the backward jumps
  before it and with the way it runs.  `CallHistory.Triggered` says which of them run as compiled
  code.
* `Tier.choose_of_due`, `Tier.choose_of_cold` and `Tier.choose_of_code` are the three choices that
  an engine has for such a function.
* `Warm` is the invariant that ties counters, flags and cache to the history.  `Warm.call` is the
  step, `warm_observes` carries it over a call, and `warm_of_calls` over a sequence of calls.
* `compiled_once_due` is the result.
-/

namespace TierVm

variable {p : Program} {e : Nat} {f j : FunctionId}

/-! ## Histories -/

/-- Compiled code is due for a function that was called and has jumped back so often. -/
def CompilationPolicy.Due (policy : CompilationPolicy) (calls loops : Nat) : Prop :=
  policy.callThreshold.toNat ≤ calls ∨ policy.loopThreshold.toNat ≤ loops

/-- An invocation of a script. -/
structure ScriptCall where
  /-- Backward jumps that interpreted activations of the script made before. -/
  loopsBefore : Nat
  compiled : Bool
  deriving DecidableEq, Repr

/-- What has happened to a function: its invocations, and the backward jumps of its interpreted
activations. -/
structure CallHistory where
  calls : List ScriptCall := []
  loops : Nat := 0
  deriving DecidableEq, Repr

namespace CallHistory

variable {σ : Type} {policy : CompilationPolicy} {h : CallHistory}

/-- Add an event. -/
def note (f : FunctionId) (h : CallHistory) : RunEvent σ → CallHistory
  | .invoked id _ _ compiled =>
    if id = f then { h with calls := h.calls ++ [⟨h.loops, compiled⟩] } else h
  | .looped id => if id = f then { h with loops := h.loops + 1 } else h

/-- The history of a function in a trace. -/
def of (f : FunctionId) (events : List (RunEvent σ)) : CallHistory := events.foldl (note f) {}

/-- Whether the function has run as compiled code. -/
def switched (h : CallHistory) : Bool := h.calls.any (·.compiled)

/-- An invocation runs as compiled code exactly if code was due at it or at an earlier one. -/
def Triggered (policy : CompilationPolicy) (h : CallHistory) : Prop :=
  ∀ (j : Nat) (call : ScriptCall), h.calls[j]? = some call →
    (call.compiled = true ↔ ∃ (i : Nat) (earlier : ScriptCall), i ≤ j ∧
      h.calls[i]? = some earlier ∧ policy.Due (i + 1) earlier.loopsBefore)

theorem of_concat (f : FunctionId) (events : List (RunEvent σ)) (event : RunEvent σ) :
    of f (events ++ [event]) = (of f events).note f event := by
  rw [of, List.foldl_append]
  rfl

/-- An invocation adds to the history of its function. -/
theorem of_invoked (f : FunctionId) (events : List (RunEvent σ)) (s : Script)
    (before : Ambient σ) (compiled : Bool) :
    of f (events ++ [.invoked f s before compiled]) =
      { of f events with calls := (of f events).calls ++ [⟨(of f events).loops, compiled⟩] } := by
  rw [of_concat, note, if_pos rfl]

/-- Histories only grow. -/
theorem le_of_append (f : FunctionId) (events later : List (RunEvent σ)) :
    (of f events).calls.length ≤ (of f (events ++ later)).calls.length ∧
      (of f events).loops ≤ (of f (events ++ later)).loops := by
  induction later using List.reverseRecOn with
  | nil => simp
  | append_singleton later event ih =>
    rw [← List.append_assoc, of_concat]
    cases event with
    | invoked id s before compiled =>
      simp only [note]
      split
      · simp only [List.length_append, List.length_singleton]
        omega
      · exact ih
    | looped id =>
      simp only [note]
      split
      · simp only
        omega
      · exact ih

/-- Another invocation.  It runs as compiled code if an earlier one did, or if code is due now. -/
theorem Triggered.call (ht : h.Triggered policy) {compiled : Bool}
    (hcompiled : compiled = true ↔
      h.switched = true ∨ policy.Due (h.calls.length + 1) h.loops) :
    Triggered policy { h with calls := h.calls ++ [⟨h.loops, compiled⟩] } := by
  have hold : ∀ {i : Nat}, i < h.calls.length →
      (h.calls ++ [⟨h.loops, compiled⟩])[i]? = h.calls[i]? := by
    intro i hi
    exact List.getElem?_append_left hi
  have hlast : (h.calls ++ [⟨h.loops, compiled⟩])[h.calls.length]? =
      some ⟨h.loops, compiled⟩ := by
    simp
  intro j call hj
  have hj' : j < h.calls.length + 1 := by
    obtain ⟨hlt, _⟩ := List.getElem?_eq_some_iff.1 hj
    simpa using hlt
  rcases Nat.lt_succ_iff_lt_or_eq.1 hj' with hlt | rfl
  · -- An earlier invocation, and those before it are as they were.
    rw [hold hlt] at hj
    rw [ht j call hj]
    refine exists_congr fun i => exists_congr fun earlier => and_congr_right fun hi => ?_
    rw [hold (by omega)]
  · cases hlast.symm.trans hj
    rw [hcompiled]
    constructor
    · rintro (hswitched | hdue)
      · obtain ⟨first, hmem, hfirst⟩ := List.any_eq_true.1 hswitched
        obtain ⟨i, hi, rfl⟩ := List.getElem_of_mem hmem
        obtain ⟨k, earlier, hk, hearlier, hdue⟩ := (ht i _ (List.getElem?_eq_getElem hi)).1 hfirst
        exact ⟨k, earlier, by omega, (hold (by omega)).trans hearlier, hdue⟩
      · exact ⟨_, _, Nat.le_refl _, hlast, hdue⟩
    · rintro ⟨i, earlier, hi, hearlier, hdue⟩
      rcases Nat.lt_or_eq_of_le hi with hlt | rfl
      · rw [hold hlt] at hearlier
        have hcompiled := (ht i earlier hearlier).2 ⟨i, earlier, Nat.le_refl i, hearlier, hdue⟩
        exact .inl (List.any_eq_true.2 ⟨earlier, List.mem_of_getElem? hearlier, hcompiled⟩)
      · cases hlast.symm.trans hearlier
        exact .inr hdue

end CallHistory

/-! ## Choices -/

namespace Tier

variable {t t' : Tier} {engine : Engine} {s : Script} {c : Counters}

theorem choose_of_installed (hinstalled : t.installed = some e)
    (hengine : t.engines[e]? = some engine) :
    choose f s c t = t.chooseIn e engine f s c := by
  simp only [choose, hinstalled, hengine]

/-- Code that an engine has is used. -/
theorem choose_of_code (hinstalled : t.installed = some e) (hengine : t.engines[e]? = some engine)
    (henabled : engine.config.enabled = true) {code : CompiledCode}
    (hget : engine.cache.get? f = some code) : choose f s c t = (some code, t) := by
  have hidle : t.starts engine f s c = false := by
    rw [Bool.eq_false_iff, ne_eq, starts_iff, hget]
    rintro ⟨_, hmissing, _⟩
    cases hmissing
  rw [choose_of_installed hinstalled hengine, chooseIn_eq, hidle, henabled, hget]
  rfl

/-- A function that is not hot is interpreted. -/
theorem choose_of_cold (hinstalled : t.installed = some e) (hengine : t.engines[e]? = some engine)
    (hget : engine.cache.get? f = none)
    (hcold : ¬ (engine.config.policy.callThreshold ≤ c.calls ∨
      engine.config.policy.loopThreshold ≤ c.loops)) : choose f s c t = (none, t) := by
  have hidle : t.starts engine f s c = false := by
    rw [Bool.eq_false_iff, ne_eq, starts_iff]
    rintro ⟨_, _, _, hhot, _⟩
    exact hcold hhot
  rw [choose_of_installed hinstalled hengine, chooseIn_eq, hidle, hget, ite_self]
  rfl

/-- A function that has become hot is compiled, if nothing stands in the way. -/
theorem choose_of_due (hstarting : t.Starting f s c e engine) (hid : f < t.flags.size)
    (hcache : engine.cache.WellKept) (hverify : s.verify = .ok ())
    (hfits : engine.cache.others f + s.codeSize ≤ engine.cache.limit) :
    ∃ code t', choose f s c t = (some code, t') ∧ t'.flagsOf f = { available := true } ∧
      t'.isCompiled e f = true := by
  have hstarts := starts_iff.2
    ⟨hstarting.enabled, hstarting.missing, hstarting.size, hstarting.hot, hstarting.untouched⟩
  obtain ⟨code, t', hobtain⟩ := obtain_ok (t := t.claimed f) (e := e) hstarting.enabled hcache
    hverify hfits
  refine ⟨code, t'.setFlags f Flags.finish, ?_, ?_, ?_⟩
  · rw [choose_of_installed hstarting.installed hstarting.present, chooseIn_eq, hstarts, hobtain]
    rfl
  · rw [flagsOf_compilation hid hstarting.untouched hobtain rfl, if_pos rfl]
    rfl
  · show t'.isCompiled e f = true
    rw [isCompiled_obtain (t := t.claimed f) hstarting.present hobtain]
    simp [Except.isOk, Except.toBool]

/-- Choices for other functions leave the code of a function as it is. -/
theorem isCompiled_choose_ne (hne : f ≠ j) :
    (choose j s c t).2.isCompiled e f = t.isCompiled e f := by
  have hchosen := chosen t j s c
  generalize choose j s c t = outcome, t.chooseEvents j s c = events at hchosen
  cases hchosen with
  | settled => rfl
  | @compiled k engine _ t' hinstalled hengine hstarts hobtain
  | @failed k engine _ t' hinstalled hengine hstarts hobtain =>
    show t'.isCompiled e f = _
    rw [isCompiled_obtain (t := t.claimed j) hengine hobtain]
    simp only [hne, decide_false, Bool.and_false, Bool.or_false]
    rfl

/-- So they leave its flags. -/
theorem flagsOf_choose_ne (hj : j < t.flags.size) (hne : f ≠ j) :
    (choose j s c t).2.flagsOf f = t.flagsOf f := by
  have hpath := hotPath hj s c
  generalize choose j s c t = outcome, t.chooseEvents j s c = events at hpath
  cases hpath with
  | idle _ => rfl
  | starts _ _ hflags => rw [hflags, if_neg hne]

/-- Obtaining code changes nobody's configuration and handles. -/
theorem engine_obtain {k : Nat} {other : Engine} (hengine : t.engines[k]? = some engine)
    (hother : t.engines[e]? = some other) :
    ∃ engine', (t.obtain e other j s).2.engines[k]? = some engine' ∧
      engine'.config = engine.config ∧ engine'.handles = engine.handles := by
  have hobtained := obtained t e other j s
  generalize t.obtain e other j s = outcome, obtainEvents e other j s = events at hobtained
  have hacquired : ∃ engine', (t.acquireFor e other).1.engines[k]? = some engine' ∧
      engine'.config = engine.config ∧ engine'.handles = engine.handles := by
    rw [getElem?_acquireFor hother]
    split
    · rename_i heq
      subst heq
      cases hengine.symm.trans hother
      exact ⟨_, rfl, rfl, rfl⟩
    · exact ⟨engine, hengine, rfl, rfl⟩
  cases hobtained with
  | disabled hdisabled => exact ⟨engine, hengine, rfl, rfl⟩
  | cached henabled hget => exact ⟨engine, hengine, rfl, rfl⟩
  | refused henabled hget hrefused => exact hacquired
  | stored henabled hget hcompile hinsert =>
    have hpresent := getElem?_acquireFor hother e
    rw [if_pos rfl] at hpresent
    simp only [getElem?_stored hpresent]
    split
    · rename_i heq
      subst heq
      cases hengine.symm.trans hother
      exact ⟨_, rfl, rfl, rfl⟩
    · exact hacquired

theorem engine_choose (hengine : t.engines[e]? = some engine) :
    ∃ engine', (choose j s c t).2.engines[e]? = some engine' ∧
      engine'.config = engine.config ∧ engine'.handles = engine.handles := by
  have hchosen := chosen t j s c
  generalize choose j s c t = outcome, t.chooseEvents j s c = events at hchosen
  cases hchosen with
  | settled => exact ⟨engine, hengine, rfl, rfl⟩
  | compiled hinstalled hother hstarts hobtain | failed hinstalled hother hstarts hobtain =>
    have hobtained := engine_obtain (t := t.claimed j) (j := j) (s := s) hengine hother
    rw [hobtain] at hobtained
    exact hobtained

end Tier

open Tier

/-! ## Counters, flags and cache by the history -/

/-- A script that engine `e` of the given configuration can compile, as far as that depends on
neither counters nor cache. -/
structure Compilable (p : Program) (config : EngineConfig) (f : FunctionId) (s : LoadedScript) :
    Prop where
  enabled : config.enabled = true
  script : p.functions[f]? = some (.script s)
  verified : s.script.verify = .ok ()
  size : s.script.code.size ≤ config.policy.maxFunctionSize

/-- Whenever function `f` is invoked, its code would fit into what the cache has left, and its
counters do not overflow. -/
structure RoomFor (e : Nat) (f : FunctionId) (s : Script) (events : List (RunEvent Tier)) :
    Prop where
  fits : ∀ {s' : Script} {before : Ambient Tier} {compiled : Bool} {engine : Engine},
    .invoked f s' before compiled ∈ events → before.tier.engines[e]? = some engine →
    engine.cache.others f + s.codeSize ≤ engine.cache.limit
  calls : (CallHistory.of f events).calls.length < 2 ^ 32
  loops : (CallHistory.of f events).loops < 2 ^ 32

/-- Counters, flags and cache are as the history of the function says. -/
structure Warm (p : Program) (e : Nat) (config : EngineConfig) (f : FunctionId)
    (events : List (RunEvent Tier)) (counters : Array Counters) (t : Tier) : Prop where
  process : ∃ log, Process p t log
  engine : ∃ engine, t.engines[e]? = some engine ∧ engine.config = config ∧ 0 < engine.handles
  counters : counters[f]? = some
    { calls := .ofNat (CallHistory.of f events).calls.length
      loops := .ofNat (CallHistory.of f events).loops }
  flags : t.flagsOf f = { available := (CallHistory.of f events).switched }
  compiled : t.isCompiled e f = (CallHistory.of f events).switched
  triggered : (CallHistory.of f events).Triggered config.policy

section

variable {config : EngineConfig} {s s' : LoadedScript} {events later : List (RunEvent Tier)}
  {counters : Array Counters} {amb : Ambient Tier} {t : Tier}

theorem RoomFor.of_append (h : RoomFor e f s.script (events ++ later)) :
    RoomFor e f s.script events where
  fits hmem hengine := h.fits (List.mem_append_left _ hmem) hengine
  calls := (CallHistory.le_of_append f events later).1.trans_lt h.calls
  loops := (CallHistory.le_of_append f events later).2.trans_lt h.loops

/-- Counters that have not overflowed tell whether code is due. -/
theorem due_iff {policy : CompilationPolicy} {calls loops : Nat} (hcalls : calls < 2 ^ 32)
    (hloops : loops < 2 ^ 32) :
    (policy.callThreshold ≤ UInt32.ofNat calls ∨ policy.loopThreshold ≤ UInt32.ofNat loops) ↔
      policy.Due calls loops := by
  rw [UInt32.le_iff_toNat_le, UInt32.le_iff_toNat_le, UInt32.toNat_ofNat_of_lt' hcalls,
    UInt32.toNat_ofNat_of_lt' hloops, CompilationPolicy.Due]

/-- The state after a choice, as far as it does not matter for which function. -/
theorem Warm.chosen (h : Warm p e config f events amb.counters amb.tier)
    (hscript : p.functions[j]? = some (.script s')) :
    (∃ log, Process p (Tier.dispatcher.dispatch j s'.script amb).2.tier log) ∧
      ∃ engine, (Tier.dispatcher.dispatch j s'.script amb).2.tier.engines[e]? = some engine ∧
        engine.config = config ∧ 0 < engine.handles := by
  obtain ⟨log, hprocess⟩ := h.process
  obtain ⟨engine, hengine, hconfig, hlive⟩ := h.engine
  obtain ⟨engine', hengine', hconfig', hhandles⟩ := engine_choose (j := j) (s := s'.script)
    (c := (amb.countCall j).counters.getD j {}) hengine
  exact ⟨⟨_, hprocess.step (.choose hscript _)⟩, engine', hengine', hconfig'.trans hconfig,
    hhandles ▸ hlive⟩

/-- An invocation of another function. -/
theorem Warm.other (h : Warm p e config f events amb.counters amb.tier)
    (hscript : p.functions[j]? = some (.script s')) (hne : f ≠ j) (compiled : Bool) :
    Warm p e config f (events ++ [.invoked j s'.script amb compiled])
      (Tier.dispatcher.dispatch j s'.script amb).2.counters
      (Tier.dispatcher.dispatch j s'.script amb).2.tier := by
  obtain ⟨hprocess, hengine⟩ := h.chosen hscript
  obtain ⟨log, hbefore⟩ := h.process
  have hj : j < amb.tier.flags.size := by
    rw [(flagged_of_process hbefore).size]
    exact lt_size_of_script hscript
  have hsame : CallHistory.of f (events ++ [.invoked j s'.script amb compiled]) =
      CallHistory.of f events := by
    rw [CallHistory.of_concat, CallHistory.note, if_neg (Ne.symm hne)]
  refine ⟨hprocess, hengine, ?_, ?_, ?_, ?_⟩
  · rw [hsame, ← h.counters]
    exact (Array.getElem?_modify ..).trans (if_neg (Ne.symm hne))
  · rw [hsame, ← h.flags]
    exact flagsOf_choose_ne hj hne
  · rw [hsame, ← h.compiled]
    exact isCompiled_choose_ne hne
  · rw [hsame]
    exact h.triggered

/-- The choice for the function itself: compiled code from the moment on that it is due. -/
theorem Warm.choice (h : Warm p e config f events amb.counters amb.tier)
    (hf : Compilable p config f s) (hinstalled : amb.tier.installed = some e)
    (hfits : ∀ engine, amb.tier.engines[e]? = some engine →
      engine.cache.others f + s.script.codeSize ≤ engine.cache.limit)
    {c : Counters} {calls loops : Nat} (hc : c = ⟨.ofNat calls, .ofNat loops⟩)
    (hcalls : calls < 2 ^ 32) (hloops : loops < 2 ^ 32) :
    ∃ code t', choose f s.script c amb.tier = (code, t') ∧
      (code.isSome = true ↔
        (CallHistory.of f events).switched = true ∨ config.policy.Due calls loops) ∧
      t'.flagsOf f = { available := code.isSome } ∧ t'.isCompiled e f = code.isSome := by
  obtain ⟨log, hprocess⟩ := h.process
  obtain ⟨engine, hengine, rfl, hlive⟩ := h.engine
  have hget : (engine.cache.get? f).isSome = (CallHistory.of f events).switched := by
    rw [← h.compiled]
    simp [isCompiled, hengine, CodeCache.contains]
  have hflags := h.flags
  have hcompiled := h.compiled
  cases hswitched : (CallHistory.of f events).switched with
  | true =>
    rw [hswitched] at hget hflags hcompiled
    obtain ⟨code, hcode⟩ := Option.isSome_iff_exists.1 hget
    exact ⟨some code, amb.tier, choose_of_code hinstalled hengine hf.enabled hcode, by simp,
      hflags, hcompiled⟩
  | false =>
    rw [hswitched] at hget hflags hcompiled
    have hmissing : engine.cache.get? f = none := by simpa using hget
    by_cases hdue : engine.config.policy.Due calls loops
    · have hid : f < amb.tier.flags.size := by
        rw [(flagged_of_process hprocess).size]
        exact lt_size_of_script hf.script
      have hhot : engine.config.policy.callThreshold ≤ c.calls ∨
          engine.config.policy.loopThreshold ≤ c.loops := by
        rw [hc]
        exact (due_iff hcalls hloops).2 hdue
      have hcache := ((accounts_of_process hprocess).engines e engine hengine).cache
      obtain ⟨code, t', hchoose, hflags', hcompiled'⟩ := choose_of_due
        ⟨hinstalled, hengine, hf.enabled, hmissing, hf.size, hhot, hflags⟩ hid hcache hf.verified
        (hfits engine hengine)
      exact ⟨some code, t', hchoose, by simp [hdue], hflags', hcompiled'⟩
    · have hcold : ¬ (engine.config.policy.callThreshold ≤ c.calls ∨
          engine.config.policy.loopThreshold ≤ c.loops) := by
        rw [hc]
        exact mt (due_iff hcalls hloops).1 hdue
      exact ⟨none, amb.tier, choose_of_cold hinstalled hengine hmissing hcold, by simp [hdue],
        hflags, hcompiled⟩

/-- The counters that an invocation of the function finds: it counts itself. -/
theorem Warm.counted (h : Warm p e config f events amb.counters amb.tier) :
    (amb.countCall f).counters[f]? = some
      { calls := .ofNat ((CallHistory.of f events).calls.length + 1)
        loops := .ofNat (CallHistory.of f events).loops } := by
  rw [Ambient.countCall, Array.getElem?_modify, if_pos rfl, h.counters]
  simp [Counters.recordCall, UInt32.ofNat_add]

/-- An invocation of the function itself. -/
theorem Warm.call (h : Warm p e config f events amb.counters amb.tier)
    (hf : Compilable p config f s) (hinstalled : amb.tier.installed = some e)
    (hroom : RoomFor e f s.script (events ++ [.invoked f s.script amb
      (Tier.dispatcher.dispatch f s.script amb).1.isSome])) :
    Warm p e config f (events ++ [.invoked f s.script amb
        (Tier.dispatcher.dispatch f s.script amb).1.isSome])
      (Tier.dispatcher.dispatch f s.script amb).2.counters
      (Tier.dispatcher.dispatch f s.script amb).2.tier := by
  obtain ⟨hprocess, hengine⟩ := h.chosen hf.script
  have hcalls : (CallHistory.of f events).calls.length + 1 < 2 ^ 32 := by
    have hcalls := hroom.calls
    rw [CallHistory.of_invoked] at hcalls
    simpa using hcalls
  have hloops : (CallHistory.of f events).loops < 2 ^ 32 := hroom.of_append.loops
  have hc : (amb.countCall f).counters.getD f {} =
      { calls := .ofNat ((CallHistory.of f events).calls.length + 1)
        loops := .ofNat (CallHistory.of f events).loops } := by
    rw [Array.getD_eq_getD_getElem?, h.counted]
    rfl
  have hfits : ∀ engine, amb.tier.engines[e]? = some engine →
      engine.cache.others f + s.script.codeSize ≤ engine.cache.limit :=
    fun engine => hroom.fits (List.mem_append_right _ (.head _))
  obtain ⟨code, t', hchoose, hcode, hflags, hcompiled⟩ :=
    h.choice hf hinstalled hfits hc hcalls hloops
  have hdispatch : Tier.dispatcher.dispatch f s.script amb =
      (code, { amb.countCall f with tier := t' }) := by
    have htier : (amb.countCall f).tier = amb.tier := rfl
    simp only [Dispatcher.dispatch, Tier.dispatcher, htier, hchoose]
  rw [hdispatch] at hprocess hengine ⊢
  -- The function has run as compiled code if and only if it does so now.
  have hswitched : (CallHistory.of f (events ++ [.invoked f s.script amb code.isSome])).switched =
      code.isSome := by
    rw [CallHistory.of_invoked, CallHistory.switched, List.any_append]
    show ((CallHistory.of f events).switched || _) = _
    cases hold : (CallHistory.of f events).switched with
    | true => simp [hcode.2 (.inl hold)]
    | false => simp
  refine ⟨hprocess, hengine, ?_, ?_, ?_, ?_⟩
  · rw [h.counted, CallHistory.of_invoked, List.length_append]
    rfl
  · rw [hflags, hswitched]
  · rw [hcompiled, hswitched]
  · rw [CallHistory.of_invoked]
    exact h.triggered.call hcode

theorem Warm.restore {before : Tier} (h : Warm p e config f events counters t)
    {log : List TierEvent} (hprocess : Process p (Tier.restore before t) log) :
    Warm p e config f events counters (Tier.restore before t) :=
  ⟨⟨log, hprocess⟩, h.engine, h.counters, h.flags, h.compiled, h.triggered⟩

theorem Warm.install (h : Warm p e config f events counters t) :
    Warm p e config f events counters (Tier.install e t) := by
  obtain ⟨log, hprocess⟩ := h.process
  obtain ⟨engine, hengine, _, hlive⟩ := h.engine
  exact ⟨⟨_, hprocess.step (.install ⟨engine, hengine, hlive⟩)⟩, h.engine, h.counters, h.flags,
    h.compiled, h.triggered⟩

/-- One event of a run, whichever. -/
theorem warm_observes (hf : Compilable p config f s) (hnatives : ∀ k, p.CallsVia (some k) → k = e) :
    Tier.dispatcher.Observes p fun events counters t => RoomFor e f s.script events →
      Warm p e config f events counters t ∧ t.installed = some e where
  invoke {events amb j s'} hscript h hroom := by
    obtain ⟨hwarm, hinstalled⟩ := h hroom.of_append
    refine ⟨?_, ?_⟩
    · by_cases hj : f = j
      · subst hj
        cases hscript.symm.trans hf.script
        exact hwarm.call hf hinstalled hroom
      · exact hwarm.other hscript hj _
    · rw [← hinstalled]
      exact (evolves_choose hscript _ amb.tier).1.installed
  loop {events counters t j} h hroom := by
    obtain ⟨hwarm, hinstalled⟩ := h hroom.of_append
    have hsame : (CallHistory.of f (events ++ [.looped j])).calls =
        (CallHistory.of f events).calls := by
      rw [CallHistory.of_concat, CallHistory.note]
      split <;> rfl
    refine ⟨⟨hwarm.process, hwarm.engine, ?_, ?_, ?_, ?_⟩, hinstalled⟩
    · rw [Array.getElem?_modify, hwarm.counters, hsame, CallHistory.of_concat, CallHistory.note]
      split
      · simp [Counters.recordLoop, UInt32.ofNat_add]
      · rfl
    · rw [hwarm.flags, CallHistory.switched, CallHistory.switched, hsame]
    · rw [hwarm.compiled, CallHistory.switched, CallHistory.switched, hsame]
    · unfold CallHistory.Triggered
      rw [hsame]
      exact hwarm.triggered
  install {events counters t k} hvia h hroom := by
    obtain ⟨hwarm, hinstalled⟩ := h hroom
    cases hnatives k hvia
    exact ⟨hwarm.install, rfl⟩
  restore {events later counters counters' before after} hbefore h hroom := by
    obtain ⟨_, hinstalled⟩ := hbefore hroom.of_append
    obtain ⟨hwarm, _⟩ := h hroom
    obtain ⟨log, hprocess⟩ := hwarm.process
    obtain ⟨engine, hengine, _, hlive⟩ := hwarm.engine
    refine ⟨hwarm.restore (hprocess.step (.restore ?_)), hinstalled⟩
    intro k hk
    cases hinstalled.symm.trans hk
    exact ⟨engine, hengine, hlive⟩

/-! ## Sequences of calls -/

/-- A call through the engine, whether it ends or not. -/
theorem Warm.engineCall (h : Warm p e config f events amb.counters amb.tier)
    (hf : Compilable p config f s) (hnatives : ∀ k, p.CallsVia (some k) → k = e) (fuel : Nat)
    (id : FunctionId) (args : List Argument) (slots : ReturnSlots) (memory : Memory) :
    Observed (fun events counters t => RoomFor e f s.script events →
        Warm p e config f events counters t ∧ t.installed = some e)
      (events ++ engineCallTrace p fuel e id args slots memory amb)
      (invoke p Tier.dispatcher fuel id args slots memory
        { amb with tier := amb.tier.install e }) :=
  invoke_observes (warm_observes hf hnatives) fuel id args slots memory _ fun _ =>
    ⟨h.install, rfl⟩

end

end TierVm
