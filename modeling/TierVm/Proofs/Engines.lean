import TierVm.Proofs.Accepted
import TierVm.Tier.Engine

/-!
# What engines do to their state

Engines compile functions, keep code, drop it and route calls.  Two things about their state matter
to a run: which engine is installed, and that all code in the caches is compiled from functions of
the program.

* `Program.Compiles` says that code is compiled from a function, and `compile_ok` what that means:
  the function is verified, and the code is what it is lowered to.
* `Tier.Evolves` is what happens to the state while calls run: the engine that is installed stays,
  and caches that hold compiled code only go on to do so.  There is one lemma for each operation
  up to `evolves_choose`, which also says what code is chosen.
* `Tier.History` are the states that engines come to by any sequence of operations, and
  `compiled_of_history` is the invariant over it.
-/

namespace TierVm

variable {p : Program}

/-! ## Compiled code -/

/-- Compiled code is what a verified script is lowered to. -/
theorem compile_ok {id : FunctionId} {s : Script} {capture : Bool} {code : CompiledCode}
    (h : compile id s capture = .ok code) :
    s.verify = .ok () ∧ Lowering.lowerCode s = .ok code.ops := by
  rw [compile] at h
  cases hverify : s.verify with
  | error d => simp [hverify] at h
  | ok u =>
    rw [hverify] at h
    cases hlower : Lowering.lowerCode s with
    | error e => simp [hlower] at h
    | ok ops =>
      rw [hlower] at h
      cases h
      exact ⟨rfl, rfl⟩

/-- The code is compiled from the script with this number. -/
def Program.Compiles (p : Program) (id : FunctionId) (code : CompiledCode) : Prop :=
  ∃ s capture, p.functions[id]? = some (.script s) ∧ compile id s.script capture = .ok code

/-! ## Caches -/

/-- All code in a cache is compiled from functions of a program, entries that are no longer valid
included. -/
def CodeCache.Holds (p : Program) (c : CodeCache) : Prop :=
  ∀ id e, (id, e) ∈ c.entries → p.Compiles id e.code

namespace CodeCache

variable {c c' : CodeCache} {id : FunctionId} {code : CompiledCode}

theorem holds_empty (limit : Nat) : Holds p { limit } := by
  intro id e he
  cases he

theorem Holds.insert (h : c.Holds p) (hcode : p.Compiles id code)
    (hinsert : c.insert id code = .ok c') : c'.Holds p := by
  simp only [CodeCache.insert] at hinsert
  split at hinsert
  · cases hinsert
  · cases hinsert
    intro k e he
    rcases List.mem_cons.1 he with heq | hold
    · cases heq
      exact hcode
    · exact h k e (List.mem_filter.1 hold).1

theorem Holds.get? (h : c.Holds p) (hget : c.get? id = some code) : p.Compiles id code := by
  rw [CodeCache.get?] at hget
  cases hentry : c.entry? id with
  | none => simp [hentry] at hget
  | some e =>
    simp only [hentry] at hget
    split at hget
    · cases hget
      obtain ⟨before, after, hentries, _⟩ := List.lookup_eq_some_iff.1 hentry
      refine h id e ?_
      rw [hentries]
      simp
    · cases hget

theorem Holds.invalidate (h : c.Holds p) (id : FunctionId) : (c.invalidate id).Holds p := by
  intro k e he
  obtain ⟨⟨k', e'⟩, hold, heq⟩ := List.mem_map.1 he
  have hcode := h k' e' hold
  simp only at heq
  split at heq
  · cases heq
    exact hcode
  · cases heq
    exact hcode

theorem Holds.clear (c : CodeCache) : c.clear.Holds p := by
  intro k e he
  cases he

end CodeCache

/-! ## Steps of engines -/

/-- All code in the caches of all engines is compiled from functions of a program. -/
def Tier.Compiled (p : Program) (t : Tier) : Prop := ∀ engine ∈ t.engines, engine.cache.Holds p

/-- What happens to the state of the engines while calls run. -/
structure Tier.Evolves (p : Program) (t t' : Tier) : Prop where
  installed : t'.installed = t.installed
  compiled : t.Compiled p → t'.Compiled p

namespace Tier

variable {t t' : Tier} {e : Nat} {engine engine' : Engine} {id : FunctionId} {s : LoadedScript}
  {code : CompiledCode}

theorem Evolves.refl (t : Tier) : t.Evolves p t := ⟨rfl, id⟩

theorem Evolves.trans {t₁ t₂ t₃ : Tier} (h₁ : t₁.Evolves p t₂) (h₂ : t₂.Evolves p t₃) :
    t₁.Evolves p t₃ :=
  ⟨h₂.installed.trans h₁.installed, fun h => h₂.compiled (h₁.compiled h)⟩

/-- Flags have no part in it. -/
theorem evolves_setFlags (t : Tier) (id : FunctionId) (f : Flags → Flags) :
    t.Evolves p (t.setFlags id f) := ⟨rfl, fun h => h⟩

theorem Compiled.setEngine (h : t.Compiled p) (hcache : engine.cache.Holds p) :
    (t.setEngine e engine).Compiled p := by
  intro other hother
  rcases Array.mem_or_eq_of_mem_setIfInBounds hother with hold | rfl
  · exact h other hold
  · exact hcache

/-- An engine that acquires the code memory keeps its cache. -/
theorem evolves_acquireFor (e : Nat) (hengine : engine ∈ t.engines) :
    t.Evolves p (t.acquireFor e engine).1 ∧
      (t.acquireFor e engine).2.cache = engine.cache := by
  rw [acquireFor]
  split
  · exact ⟨.refl t, rfl⟩
  · refine ⟨⟨rfl, ?_⟩, rfl⟩
    intro h
    exact Compiled.setEngine h (h engine hengine)

theorem store_ok (hcode : p.Compiles id code) (h : t.store e engine id code = .ok t') :
    t'.installed = t.installed ∧ (t.Compiled p → engine.cache.Holds p → t'.Compiled p) := by
  rw [store] at h
  cases hinsert : engine.cache.insert id code with
  | error err => simp [hinsert] at h
  | ok cache =>
    rw [hinsert] at h
    cases h
    refine ⟨rfl, ?_⟩
    intro hcompiled hholds
    exact Compiled.setEngine hcompiled (hholds.insert hcode hinsert)

/-- Code is taken from the cache or compiled now; either way it is compiled from the script. -/
theorem evolves_obtain (e : Nat) (hengine : engine ∈ t.engines)
    (hscript : p.functions[id]? = some (.script s)) :
    t.Evolves p (t.obtain e engine id s.script).2 ∧
      (t.Compiled p → ∀ {code}, (t.obtain e engine id s.script).1 = .ok code →
        p.Compiles id code) := by
  obtain ⟨hacquired, hcache⟩ := evolves_acquireFor (p := p) e hengine
  rw [Tier.obtain]
  split
  · exact ⟨.refl t, fun _ _ hcode => nomatch hcode⟩
  · split
    · rename_i code hget
      refine ⟨.refl t, ?_⟩
      intro h code' hcode
      cases hcode
      exact (h engine hengine).get? hget
    · simp only
      split
      · exact ⟨hacquired, fun _ _ hcode => nomatch hcode⟩
      · rename_i code hcompile
        have hcode : p.Compiles id code := ⟨s, _, hscript, hcompile⟩
        split
        · exact ⟨hacquired, fun _ _ hcode => nomatch hcode⟩
        · rename_i t' hstore
          obtain ⟨hinstalled, hcompiled⟩ := store_ok hcode hstore
          refine ⟨⟨hinstalled.trans hacquired.installed, ?_⟩, ?_⟩
          · intro h
            refine hcompiled (hacquired.compiled h) ?_
            rw [hcache]
            exact h engine hengine
          · intro _ code' heq
            cases heq
            exact hcode

theorem evolves_chooseIn (e : Nat) (hengine : engine ∈ t.engines)
    (hscript : p.functions[id]? = some (.script s)) (c : Counters) :
    t.Evolves p (t.chooseIn e engine id s.script c).2 ∧
      (t.Compiled p → ∀ {code}, (t.chooseIn e engine id s.script c).1 = some code →
        p.Compiles id code) := by
  rw [chooseIn]
  split
  · exact ⟨.refl t, fun _ _ hcode => nomatch hcode⟩
  · split
    · rename_i code hget
      refine ⟨.refl t, ?_⟩
      intro h code' hcode
      cases hcode
      exact (h engine hengine).get? hget
    · split
      · exact ⟨.refl t, fun _ _ hcode => nomatch hcode⟩
      · split
        · exact ⟨.refl t, fun _ _ hcode => nomatch hcode⟩
        · -- Claiming the function changes flags only, so its engine is still there.
          have hclaimed : engine ∈ (t.setFlags id fun f => f.tryStart.2).engines := hengine
          obtain ⟨hevolves, hcode⟩ := evolves_obtain (p := p) e hclaimed hscript
          simp only
          cases hobtain : (t.setFlags id fun f => f.tryStart.2).obtain e engine id s.script with
          | mk outcome after =>
            rw [hobtain] at hevolves hcode
            have hafter : t.Evolves p after := (evolves_setFlags t id _).trans hevolves
            cases outcome with
            | ok code =>
              refine ⟨hafter.trans (evolves_setFlags after id _), ?_⟩
              intro h code' heq
              cases heq
              exact hcode h rfl
            | error err =>
              exact ⟨hafter.trans (evolves_setFlags after id _), fun _ _ hcode => nomatch hcode⟩

/-- The installed engine is asked, and code that it chooses is compiled from the script. -/
theorem evolves_choose (hscript : p.functions[id]? = some (.script s)) (c : Counters) (t : Tier) :
    t.Evolves p (choose id s.script c t).2 ∧
      (t.Compiled p → ∀ {code}, (choose id s.script c t).1 = some code → p.Compiles id code) := by
  rw [choose]
  split
  · exact ⟨.refl t, fun _ _ hcode => nomatch hcode⟩
  · split
    · exact ⟨.refl t, fun _ _ hcode => nomatch hcode⟩
    · rename_i engine hengine
      exact evolves_chooseIn _ (Array.mem_of_getElem? hengine) hscript c

/-! ## Histories -/

/-- The states that engines come to by any sequence of operations on a program. -/
inductive History (p : Program) : Tier → Prop where
  | start (flags : Array Flags) : History p { flags }
  | addEngine {t : Tier} (config : EngineConfig) (h : History p t) : History p (t.addEngine config)
  | cloneEngine {t : Tier} (e : Nat) (h : History p t) : History p (t.cloneEngine e)
  | dropEngine {t : Tier} (e : Nat) (h : History p t) : History p (t.dropEngine e)
  | invalidate {t : Tier} (e : Nat) (id : FunctionId) (h : History p t) :
      History p (t.invalidate e id)
  | clearCache {t : Tier} (e : Nat) (h : History p t) : History p (t.clearCache e)
  | setFlags {t : Tier} (id : FunctionId) (f : Flags → Flags) (h : History p t) :
      History p (t.setFlags id f)
  | compileNow {t : Tier} (e : Nat) {id : FunctionId} {s : LoadedScript}
      (hscript : p.functions[id]? = some (.script s)) (h : History p t) :
      History p (t.compileNow e id s.script).2
  | choose {t : Tier} {id : FunctionId} {s : LoadedScript}
      (hscript : p.functions[id]? = some (.script s)) (c : Counters) (h : History p t) :
      History p (choose id s.script c t).2
  | install {t : Tier} (e : Nat) (h : History p t) : History p (install e t)
  | restore {before t : Tier} (h : History p t) : History p (restore before t)

theorem Compiled.addEngine (h : t.Compiled p) (config : EngineConfig) :
    (t.addEngine config).Compiled p := by
  intro engine hengine
  rcases Array.mem_push.1 hengine with hold | rfl
  · exact h engine hold
  · exact CodeCache.holds_empty _

theorem Compiled.cloneEngine (h : t.Compiled p) (e : Nat) : (t.cloneEngine e).Compiled p := by
  rw [Tier.cloneEngine]
  split
  · exact h
  · rename_i engine hengine
    exact h.setEngine (h engine (Array.mem_of_getElem? hengine))

theorem Compiled.dropEngine (h : t.Compiled p) (e : Nat) : (t.dropEngine e).Compiled p := by
  rw [Tier.dropEngine]
  split
  · exact h
  · rename_i engine hengine
    split
    · exact h.setEngine (h engine (Array.mem_of_getElem? hengine))
    · exact Compiled.setEngine h (CodeCache.Holds.clear _)

theorem Compiled.invalidate (h : t.Compiled p) (e : Nat) (id : FunctionId) :
    (t.invalidate e id).Compiled p := by
  rw [Tier.invalidate]
  split
  · exact h
  · rename_i engine hengine
    exact h.setEngine ((h engine (Array.mem_of_getElem? hengine)).invalidate id)

theorem Compiled.clearCache (h : t.Compiled p) (e : Nat) : (t.clearCache e).Compiled p := by
  rw [Tier.clearCache]
  split
  · exact h
  · exact Compiled.setEngine h (CodeCache.Holds.clear _)

theorem Compiled.compileNow (h : t.Compiled p) (e : Nat)
    (hscript : p.functions[id]? = some (.script s)) :
    (t.compileNow e id s.script).2.Compiled p := by
  rw [Tier.compileNow]
  cases hengine : t.engines[e]? with
  | none => exact h
  | some engine =>
    have hevolves := (evolves_obtain (p := p) e (Array.mem_of_getElem? hengine) hscript).1
    simp only
    split
    all_goals
      rename_i hobtain
      rw [hobtain] at hevolves
      exact hevolves.compiled h

/-- Whatever engines have done before, their caches hold compiled code only. -/
theorem compiled_of_history (h : History p t) : t.Compiled p := by
  induction h with
  | start flags =>
    intro engine hengine
    cases hengine
    contradiction
  | addEngine config _ ih => exact ih.addEngine config
  | cloneEngine e _ ih => exact ih.cloneEngine e
  | dropEngine e _ ih => exact ih.dropEngine e
  | invalidate e id _ ih => exact ih.invalidate e id
  | clearCache e _ ih => exact ih.clearCache e
  | setFlags id f _ ih => exact ih
  | compileNow e hscript _ ih => exact ih.compileNow e hscript
  | choose hscript c _ ih => exact (evolves_choose hscript c _).1.compiled ih
  | install e _ ih => exact ih
  | restore _ ih => exact ih

end Tier

end TierVm
