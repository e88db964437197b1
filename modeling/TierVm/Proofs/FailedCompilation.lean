import TierVm.Proofs.CompilationEpochs
import TierVm.Proofs.SameChoices

/-!
# Compilations that fail

A compilation can fail before the engine turns to the code memory, because the script is refused, or
because the code does not fit into the cache.  It is asked for, or started by a call.

* `CompileError.Cause` says what an error tells, and `obtain_error` that every error tells the truth
  and comes with a state that differs in who holds the code memory only.
* `Tier.Unharmed` is what a failure leaves as it was.  `Tier.compileNow_error` and
  `Tier.choose_failed` prove it for both ways to compile.
* `fails_during` says that a call during which the compilation of its function fails comes to what
  it comes to if the function is left to the interpreter.
* `Tier.starts_invalidate` says that the flags of a function that was invalidated do not keep it
  from being compiled.
* `failed_compilation_atomic` puts the pieces together.
-/

namespace TierVm

variable {e k : Nat} {id j : FunctionId} {engine : Engine} {s : Script} {c : Counters}

/-- What an error of a compilation says about the engine and the script. -/
def CompileError.Cause (engine : Engine) (s : Script) : CompileError → Prop
  | .disabled => engine.config.enabled = false
  | .unknownOpcode pc op => s.verify = .error (.unknownOpcode pc op)
  | .verify defect => s.verify = .error defect
  | .cacheFull size limit =>
    s.verify = .ok () ∧ limit = engine.cache.limit ∧ limit < size + s.codeSize
  | .malformed _ _ | .codegen _ => False

/-- Compiling is refused for a defect of the script. -/
theorem compile_error {capture : Bool} {err : CompileError}
    (h : compile id s capture = .error err) :
    ∃ defect, s.verify = .error defect ∧ err = .ofDefect defect := by
  rw [compile] at h
  cases hverify : s.verify with
  | error defect =>
    rw [hverify] at h
    cases h
    exact ⟨defect, rfl, rfl⟩
  | ok u =>
    obtain ⟨ops, hlower, _⟩ := lowerCode_found hverify
    rw [hverify] at h
    simp only [hlower] at h
    cases h

theorem CompileError.cause_ofDefect {defect : Defect} (h : s.verify = .error defect) :
    (CompileError.ofDefect defect).Cause engine s := by
  cases defect <;> exact h

namespace Tier

variable {t t' : Tier}

/-- Failing to obtain code has a cause, and changes nothing but who holds the code memory. -/
theorem obtain_error (hengine : t.engines[e]? = some engine) {err : CompileError}
    (h : t.obtain e engine id s = (.error err, t')) :
    err.Cause engine s ∧ t'.Alike t ∧ (err = .disabled → t' = t) := by
  rw [Tier.obtain] at h
  cases henabled : engine.config.enabled with
  | false =>
    rw [henabled] at h
    cases h
    exact ⟨henabled, .refl t, fun _ => rfl⟩
  | true =>
    rw [henabled] at h
    cases hget : engine.cache.get? id with
    | some code =>
      rw [hget] at h
      cases h
    | none =>
      simp only [hget, Bool.not_true, Bool.false_eq_true, if_false] at h
      rw [acquireFor_snd] at h
      have halike := Alike.acquireFor_left hengine
      cases hcompile : compile id s engine.config.captureListing with
      | error err' =>
        simp only [hcompile] at h
        cases h
        obtain ⟨defect, hverify, rfl⟩ := compile_error hcompile
        refine ⟨CompileError.cause_ofDefect hverify, halike, ?_⟩
        intro hdisabled
        cases defect <;> cases hdisabled
      | ok code =>
        obtain ⟨hverify, _⟩ := compile_ok hcompile
        obtain ⟨code', hcompile', hcode⟩ :=
          compile_of_verify id engine.config.captureListing hverify
        cases hcompile.symm.trans hcompile'
        simp only [hcompile, store] at h
        cases hinsert : engine.cache.insert id code with
        | error err' =>
          simp only [hinsert] at h
          cases h
          rw [CodeCache.insert] at hinsert
          split at hinsert
          · rename_i hfull
            cases hinsert
            rw [hcode] at hfull
            refine ⟨⟨hverify, rfl, hfull⟩, halike, ?_⟩
            intro hdisabled
            cases hdisabled
          · cases hinsert
        | ok cache =>
          simp only [hinsert] at h
          cases h

/-! ## What a failure leaves -/

/-- What a compilation of function `id` that fails leaves as it was: the caches of all engines with
their configurations and handles, the routing of calls, and the flags of all functions, but that it
may tell of the failure. -/
structure Unharmed (t : Tier) (id : FunctionId) (t' : Tier) : Prop where
  engines : ∀ {k : Nat} {engine : Engine}, t.engines[k]? = some engine →
    ∃ engine', t'.engines[k]? = some engine' ∧ engine'.cache = engine.cache ∧
      engine'.config = engine.config ∧ engine'.handles = engine.handles
  installed : t'.installed = t.installed
  others : ∀ j, j ≠ id → t'.flagsOf j = t.flagsOf j
  own : t'.flagsOf id = t.flagsOf id ∨ t'.flagsOf id = { t.flagsOf id with failed := true }

theorem flagsOf_setFlags_ne {f : Flags → Flags} (hj : j ≠ id) :
    (t.setFlags id f).flagsOf j = t.flagsOf j := by
  simp [flagsOf, setFlags, Array.getD_eq_getD_getElem?, Array.getElem?_modify, Ne.symm hj]

/-- The flags of a function that does not exist do not change. -/
theorem flagsOf_setFlags_self (t : Tier) (id : FunctionId) (f : Flags → Flags) :
    (t.setFlags id f).flagsOf id = t.flagsOf id ∨
      (t.setFlags id f).flagsOf id = f (t.flagsOf id) := by
  by_cases hid : id < t.flags.size
  · rw [flagsOf_setFlags hid, if_pos rfl]
    exact .inr rfl
  · simp [flagsOf, setFlags, hid]

/-- A state like one in which only the failure is noted. -/
theorem Alike.unharmed {f : Flags → Flags} (h : t'.Alike (t.setFlags id f))
    (hf : f (t.flagsOf id) = { t.flagsOf id with failed := true }) : t.Unharmed id t' := by
  have hflags : ∀ j, t'.flagsOf j = (t.setFlags id f).flagsOf j := fun j => by
    rw [flagsOf, flagsOf, h.flags]
  refine ⟨?_, h.installed, ?_, ?_⟩
  · intro k engine hengine
    have hsame := h.engines k
    rw [show (t.setFlags id f).engines[k]? = some engine from hengine] at hsame
    obtain ⟨engine', hengine', hunheld⟩ := Option.map_eq_some_iff.1 hsame
    obtain ⟨config, cache, acquired, handles⟩ := engine
    obtain ⟨config', cache', acquired', handles'⟩ := engine'
    cases hunheld
    exact ⟨_, hengine', rfl, rfl, rfl⟩
  · intro j hj
    rw [hflags, flagsOf_setFlags_ne hj]
  · rw [hflags, ← hf]
    exact flagsOf_setFlags_self t id f

theorem Unharmed.refl (t : Tier) (id : FunctionId) : t.Unharmed id t :=
  ⟨fun hengine => ⟨_, hengine, rfl, rfl, rfl⟩, rfl, fun _ _ => rfl, .inl rfl⟩

/-- A request to compile a function that fails. -/
theorem compileNow_error (hengine : t.engines[e]? = some engine) {err : CompileError}
    (h : t.compileNow e id s = (.error err, t')) :
    err.Cause engine s ∧ t.Unharmed id t' ∧ (err = .disabled → t' = t) := by
  simp only [compileNow, hengine] at h
  cases hobtain : t.obtain e engine id s with
  | mk outcome u =>
    rw [hobtain] at h
    cases outcome with
    | ok code => cases h
    | error err' =>
      obtain ⟨hcause, halike, hdisabled⟩ := obtain_error hengine hobtain
      have hfailed : ∀ f : Flags → Flags, f (t.flagsOf id) = { t.flagsOf id with failed := true } →
          t.Unharmed id (u.setFlags id f) :=
        fun f hf => (halike.setFlags id f).unharmed hf
      cases err' with
      | disabled =>
        cases h
        cases hdisabled rfl
        exact ⟨hcause, .refl t id, fun _ => rfl⟩
      | unknownOpcode | verify | malformed | codegen | cacheFull =>
        cases h
        refine ⟨hcause, hfailed _ rfl, ?_⟩
        intro hother
        cases hother

/-- A compilation that a call starts and that fails: the state is as if the function had been marked
before. -/
theorem choose_failed (hstarting : t.Starting id s c e engine)
    (h : choose id s c t = (none, t')) : t'.Alike (t.setFlags id Flags.fail) := by
  have hstarts := starts_iff.2 ⟨hstarting.enabled, hstarting.missing, hstarting.size,
    hstarting.hot, hstarting.untouched⟩
  simp only [choose, hstarting.installed, hstarting.present, chooseIn_eq, hstarts, if_true] at h
  cases hobtain : (t.claimed id).obtain e engine id s with
  | mk outcome u =>
    rw [hobtain] at h
    cases outcome with
    | ok code => cases h
    | error err =>
      cases h
      obtain ⟨_, halike, _⟩ := obtain_error (t := t.claimed id) hstarting.present hobtain
      have hmarked : ((t.claimed id).setFlags id Flags.fail).Alike (t.setFlags id Flags.fail) := by
        refine ⟨rfl, ?_, fun _ => rfl⟩
        refine Array.ext_getElem? fun k => ?_
        simp only [claimed, setFlags, Array.getElem?_modify]
        split
        · cases t.flags[k]? <;> rfl
        · rfl
      exact (halike.setFlags id Flags.fail).trans hmarked

/-- A function that is marked as failed is interpreted. -/
theorem choose_marked (hmissing : ∀ k engine, t.installed = some k → t.engines[k]? = some engine →
      engine.cache.get? id = none) (hfailed : (t.flagsOf id).failed = true) :
    choose id s c t = (none, t) := by
  rw [choose]
  cases hinstalled : t.installed with
  | none => rfl
  | some k =>
    cases hengine : t.engines[k]? with
    | none => simp only [hengine]
    | some engine =>
      have hidle : t.starts engine id s c = false := by
        rw [Bool.eq_false_iff, ne_eq, starts_iff]
        rintro ⟨_, _, _, _, huntouched⟩
        rw [huntouched] at hfailed
        cases hfailed
      simp only [hengine, chooseIn_eq, hidle, hmissing k engine hinstalled hengine, ite_self]
      rfl

/-! ## Functions that are invalidated -/

theorem flagsOf_invalidate (hengine : t.engines[e]? = some engine) (hid : id < t.flags.size) :
    (t.invalidate e id).flagsOf id = { compiling := (t.flagsOf id).compiling } := by
  simp only [invalidate, hengine]
  exact (flagsOf_setFlags (t := t.setEngine e _) hid).trans (if_pos rfl)

/-- A function that was invalidated is compiled again as soon as it is hot: it does not matter
whether there was code or a failure before. -/
theorem starts_invalidate (hengine : t.engines[e]? = some engine) (hid : id < t.flags.size)
    (other : Engine) : (t.invalidate e id).starts other id s c = true ↔
      other.config.enabled = true ∧ other.cache.get? id = none ∧
        s.code.size ≤ other.config.policy.maxFunctionSize ∧
        (other.config.policy.callThreshold ≤ c.calls ∨
          other.config.policy.loopThreshold ≤ c.loops) ∧ (t.flagsOf id).compiling = false := by
  rw [starts_iff, flagsOf_invalidate hengine hid]
  simp

end Tier

open Tier

/-! ## Calls -/

section

variable {p : Program} {amb after : Ambient Tier} {s : LoadedScript}

/-- The state around a call of function `id`, if it was found before that the function cannot be
compiled. -/
def Ambient.marked (amb : Ambient Tier) (id : FunctionId) : Ambient Tier :=
  amb.withTier (amb.tier.setFlags id Flags.fail)

/-- What a call does whose function cannot be compiled, although it is tried. -/
structure FailsDuring (p : Program) (id : FunctionId) (s : LoadedScript)
    (amb after : Ambient Tier) : Prop where
  /-- The call is counted, and then only the engines change. -/
  counted : after = (amb.countCall id).withTier after.tier
  unharmed : amb.tier.Unharmed id after.tier
  /-- The function is interpreted. -/
  interpreted : ∀ (fuel : Nat) (args : List Argument) (slots : ReturnSlots) (memory : Memory),
    invoke p Tier.dispatcher (fuel + 1) id args slots memory amb =
      interpret p.size (invoke p Tier.dispatcher fuel) fuel id s args slots memory after
  /-- If it had been known that the function cannot be compiled, it would not have been tried. -/
  untried : Tier.dispatcher.dispatch id s.script (amb.marked id) =
    (none, (amb.countCall id).withTier (amb.marked id).tier)
  /-- The call would have come to the same: the same outcome, results, memory, frames, counters and
  native calls, and engines that differ in who holds the code memory only. -/
  same : ∀ (fuel : Nat) (args : List Argument) (slots : ReturnSlots) (memory : Memory),
    SameButTier Tier.Alike (invoke p Tier.dispatcher fuel id args slots memory amb)
      (invoke p Tier.dispatcher fuel id args slots memory (amb.marked id))

/-- A function that is known to fail is not tried. -/
theorem dispatch_marked (hid : id < amb.tier.flags.size)
    (hstarting : amb.tier.Starting id s.script ((amb.countCall id).counters.getD id {}) e engine) :
    Tier.dispatcher.dispatch id s.script (amb.marked id) =
      (none, (amb.countCall id).withTier (amb.marked id).tier) := by
  have hmarked : choose id s.script ((amb.countCall id).counters.getD id {})
      (amb.marked id).tier = (none, (amb.marked id).tier) := by
    refine choose_marked ?_ ?_
    · intro k other hinstalled hengine
      cases hinstalled.symm.trans hstarting.installed
      cases hengine.symm.trans hstarting.present
      exact hstarting.missing
    · show ((amb.tier.setFlags id Flags.fail).flagsOf id).failed = true
      rw [flagsOf_setFlags hid, if_pos rfl]
      rfl
  exact congrArg (fun choice : Option CompiledCode × Tier =>
    (choice.1, (amb.countCall id).withTier choice.2)) hmarked

/-- A call whose function cannot be compiled, although it is tried. -/
theorem fails_during (hid : id < amb.tier.flags.size)
    (hscript : p.functions[id]? = some (.script s))
    (hstarting : amb.tier.Starting id s.script ((amb.countCall id).counters.getD id {}) e engine)
    (hfailed : Tier.dispatcher.dispatch id s.script amb = (none, after)) :
    FailsDuring p id s amb after := by
  have hcode : (choose id s.script ((amb.countCall id).counters.getD id {}) amb.tier).1 = none :=
    congrArg Prod.fst hfailed
  have hafter : (amb.countCall id).withTier
      (choose id s.script ((amb.countCall id).counters.getD id {}) amb.tier).2 = after :=
    congrArg Prod.snd hfailed
  have halike : after.tier.Alike (amb.marked id).tier := by
    refine choose_failed hstarting (Prod.ext hcode ?_)
    rw [← hafter]
    rfl
  have huntried := dispatch_marked hid hstarting
  have hinterpreted : ∀ (fuel : Nat) (args : List Argument) (slots : ReturnSlots)
      (memory : Memory), invoke p Tier.dispatcher (fuel + 1) id args slots memory amb =
        interpret p.size (invoke p Tier.dispatcher fuel) fuel id s args slots memory after := by
    intro fuel args slots memory
    rw [invoke, hscript]
    simp only [hfailed]
  refine ⟨?_, ?_, hinterpreted, huntried, ?_⟩
  · rw [← hafter]
    rfl
  · refine halike.unharmed ?_
    rw [hstarting.untouched]
    rfl
  · intro fuel args slots memory
    cases fuel with
    | zero => exact .stops _
    | succ fuel =>
      have hsame : SameButTier Tier.Alike
          (interpret p.size (invoke p Tier.dispatcher fuel) fuel id s args slots memory after)
          (interpret p.size (invoke p Tier.dispatcher fuel) fuel id s args slots memory
            (after.withTier (amb.marked id).tier)) :=
        interpret_same (invoke_same alike_simulates fuel) halike s fuel args slots memory
      rw [hinterpreted, invoke, hscript]
      simp only [huntried]
      rw [← hafter] at hsame ⊢
      exact hsame

end

/-- A compilation that fails changes nothing but a flag.  If it was asked for, the error has a
cause, no cache is different, and of all profiles only that of the function may tell of the failure,
which it does not if the engine is disabled.  If a call has started it, the same holds, and the call
comes to what it comes to if the function is left to the interpreter.  Once the function is
invalidated, its flags do not keep an engine from compiling it. -/
theorem failed_compilation_atomic :
    (∀ {t t' : Tier} {e : Nat} {engine : Engine} {id : FunctionId} {s : Script}
        {err : CompileError}, t.engines[e]? = some engine →
        t.compileNow e id s = (.error err, t') →
        err.Cause engine s ∧ t.Unharmed id t' ∧ (err = .disabled → t' = t)) ∧
      (∀ {p : Program} {amb after : Ambient Tier} {e : Nat} {engine : Engine} {id : FunctionId}
        {s : LoadedScript}, id < amb.tier.flags.size → p.functions[id]? = some (.script s) →
        amb.tier.Starting id s.script ((amb.countCall id).counters.getD id {}) e engine →
        Tier.dispatcher.dispatch id s.script amb = (none, after) →
        FailsDuring p id s amb after) ∧
      ∀ {t : Tier} {e : Nat} {engine : Engine} {id : FunctionId}, t.engines[e]? = some engine →
        id < t.flags.size →
        (t.invalidate e id).flagsOf id = { compiling := (t.flagsOf id).compiling } ∧
        ∀ (other : Engine) (s : Script) (c : Counters),
          (t.invalidate e id).starts other id s c = true ↔
            other.config.enabled = true ∧ other.cache.get? id = none ∧
              s.code.size ≤ other.config.policy.maxFunctionSize ∧
              (other.config.policy.callThreshold ≤ c.calls ∨
                other.config.policy.loopThreshold ≤ c.loops) ∧
              (t.flagsOf id).compiling = false := by
  refine ⟨?_, ?_, ?_⟩
  · intro t t' e engine id s err hengine h
    exact compileNow_error hengine h
  · intro p amb after e engine id s hid hscript hstarting hfailed
    exact fails_during hid hscript hstarting hfailed
  · intro t e engine id hengine hid
    exact ⟨flagsOf_invalidate hengine hid, fun other s c => starts_invalidate hengine hid other⟩

/-- An engine without room for code, which compiles every function at once. -/
def crampedEngine : Engine where
  config := { policy := { callThreshold := 0 }, maxCodeSize := 0 }
  cache := { limit := 0 }

/-- The state around calls with this engine. -/
def crampedAmbient : Ambient Tier where
  counters := Array.replicate emptyScript.size {}
  tier := { engines := #[crampedEngine], flags := #[{}], installed := some 0 }

/-- A request to compile a function fails, and so does the compilation that a call starts.  The call
is interpreted.  After the function is invalidated, the engine starts again. -/
theorem failed_compilation_atomic_cramped :
    (∃ size t', crampedAmbient.tier.compileNow 0 0 emptyFunction.script =
        (.error (.cacheFull size 0), t') ∧ crampedAmbient.tier.Unharmed 0 t' ∧
        (t'.invalidate 0 0).starts crampedEngine 0 emptyFunction.script { calls := 1 } = true) ∧
      ∃ after, Tier.dispatcher.dispatch 0 emptyFunction.script crampedAmbient = (none, after) ∧
        after.tier.flagsOf 0 = { failed := true } ∧
        FailsDuring emptyScript 0 emptyFunction crampedAmbient after := by
  obtain ⟨hrequested, hcalled, hinvalidated⟩ := failed_compilation_atomic
  refine ⟨?_, ?_⟩
  · obtain ⟨size, t', hcompile, hengine, hid, hunclaimed⟩ : ∃ size t',
        crampedAmbient.tier.compileNow 0 0 emptyFunction.script =
          (.error (.cacheFull size 0), t') ∧
        t'.engines[0]? = some { crampedEngine with acquired := true } ∧
        0 < t'.flags.size ∧ (t'.flagsOf 0).compiling = false :=
      ⟨_, _, rfl, rfl, Nat.zero_lt_one, rfl⟩
    have hpresent : crampedAmbient.tier.engines[0]? = some crampedEngine := rfl
    obtain ⟨_, hunharmed, _⟩ := hrequested hpresent hcompile
    refine ⟨size, t', hcompile, hunharmed, ?_⟩
    refine ((hinvalidated hengine hid).2 _ _ _).2 ?_
    exact ⟨rfl, rfl, by decide, .inl (by decide), hunclaimed⟩
  · have hstarting : crampedAmbient.tier.Starting 0 emptyFunction.script
        ((crampedAmbient.countCall 0).counters.getD 0 {}) 0 crampedEngine :=
      ⟨rfl, rfl, rfl, rfl, by decide, .inl (by decide), rfl⟩
    obtain ⟨after, hfailed, hflags⟩ : ∃ after,
        Tier.dispatcher.dispatch 0 emptyFunction.script crampedAmbient = (none, after) ∧
          after.tier.flagsOf 0 = { failed := true } := ⟨_, rfl, rfl⟩
    exact ⟨after, hfailed, hflags, hcalled Nat.zero_lt_one rfl hstarting hfailed⟩

end TierVm
