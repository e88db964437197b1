import TierVm.Proofs.CodeLifetime
import TierVm.Proofs.LoweringTotal

/-!
# Hot functions

An engine compiles a function when it has been called often enough.  Whether it does depends on the
flags of the function, which all engines share, and on the cache, which is the engine's own and can
lose entries without the flags.

* `compiledSince` and `failedSince` tell from a log what happened to a function since it was last
  invalidated, and `flagged_of_process` says that the flags tell the same.
* `Tier.isCompiled` says whether an engine has code for a function.  `Tier.Settled` is how code and
  flags of a function develop while calls run, and `settled_choose` is the step.
* `HotCall` is a call of a hot function, and `HotCall.choose_cases` says what the engine does with
  it.
* `hot_function_compiled` says when such a function is compiled after the call, and
  `hot_function_stays_interpreted` that this is not always so.
-/

namespace TierVm

variable {p : Program} {log events : List TierEvent} {e k : Nat} {id j : FunctionId}

/-! ## Flags by the log -/

namespace TierEvent

/-- Compiling the function ended with code. -/
def compiles (id : FunctionId) : TierEvent → Bool
  | .compiled _ k => k = id
  | _ => false

/-- Compiling the function failed. -/
def fails (id : FunctionId) : TierEvent → Bool
  | .failed _ k => k = id
  | _ => false

/-- The function is invalidated, by whichever engine. -/
def invalidates (id : FunctionId) : TierEvent → Bool
  | .invalidated _ k => k = id
  | _ => false

/-- The function whose flags show the event. -/
def subject? : TierEvent → Option FunctionId
  | .compiled _ id | .failed _ id | .invalidated _ id => some id
  | _ => none

end TierEvent

/-- The events since a function was last invalidated. -/
def sinceInvalidated (id : FunctionId) (log : List TierEvent) : List TierEvent :=
  log.takeWhile fun event => !event.invalidates id

/-- Whether a function was compiled since it was last invalidated. -/
def compiledSince (id : FunctionId) (log : List TierEvent) : Bool :=
  (sinceInvalidated id log).any (·.compiles id)

/-- Whether compiling a function failed since it was last invalidated. -/
def failedSince (id : FunctionId) (log : List TierEvent) : Bool :=
  (sinceInvalidated id log).any (·.fails id)

theorem any_sinceInvalidated_cons (test : TierEvent → Bool) (event : TierEvent) :
    (sinceInvalidated id (event :: log)).any test =
      (!event.invalidates id && (test event || (sinceInvalidated id log).any test)) := by
  rw [sinceInvalidated, List.takeWhile_cons]
  cases event.invalidates id <;> rfl

/-- An event that does not show in the flags of a function changes nothing for it. -/
theorem since_cons (log : List TierEvent) {event : TierEvent} (h : event.subject? ≠ some id) :
    compiledSince id (event :: log) = compiledSince id log ∧
      failedSince id (event :: log) = failedSince id log := by
  have hnone : event.invalidates id = false ∧ event.compiles id = false ∧
      event.fails id = false := by
    cases event with
    | compiled e k | failed e k | invalidated e k =>
      have hk : k ≠ id := fun heq => h (congrArg some heq)
      simp [TierEvent.invalidates, TierEvent.compiles, TierEvent.fails, hk]
    | acquired | shared | dropped | cleared | ended | started | attempted => exact ⟨rfl, rfl, rfl⟩
  obtain ⟨hinvalidates, hcompiles, hfails⟩ := hnone
  rw [compiledSince, failedSince, any_sinceInvalidated_cons, any_sinceInvalidated_cons,
    hinvalidates, hcompiles, hfails]
  exact ⟨rfl, rfl⟩

theorem since_append (h : ∀ event ∈ events, event.subject? ≠ some id) :
    compiledSince id (events ++ log) = compiledSince id log ∧
      failedSince id (events ++ log) = failedSince id log := by
  induction events with
  | nil => exact ⟨rfl, rfl⟩
  | cons event earlier ih =>
    obtain ⟨hcompiled, hfailed⟩ := ih fun other hother => h other (.tail _ hother)
    have hevent := since_cons (earlier ++ log) (h event (.head _))
    exact ⟨hevent.1.trans hcompiled, hevent.2.trans hfailed⟩

namespace Tier

variable {t t' : Tier} {engine : Engine} {s : Script} {c : Counters} {f : Flags → Flags}

theorem flagsOf_setFlags (hid : id < t.flags.size) :
    (t.setFlags id f).flagsOf j = if j = id then f (t.flagsOf id) else t.flagsOf j := by
  simp only [flagsOf, setFlags, Array.getD_eq_getD_getElem?, Array.getElem?_modify]
  by_cases hj : j = id
  · subst hj
    simp [hid]
  · simp [hj, Ne.symm hj]

/-- The flags of every function tell what the log says. -/
structure Flagged (p : Program) (t : Tier) (log : List TierEvent) : Prop where
  size : t.flags.size = p.size
  available : ∀ id, id < p.size → (t.flagsOf id).available = compiledSince id log
  failed : ∀ id, id < p.size → (t.flagsOf id).failed = failedSince id log

/-- Nothing happens that flags show. -/
theorem Flagged.append (h : t.Flagged p log) (hflags : t'.flags = t.flags)
    (hevents : ∀ event ∈ events, event.subject? = none) : t'.Flagged p (events ++ log) := by
  have hsince : ∀ id, compiledSince id (events ++ log) = compiledSince id log ∧
      failedSince id (events ++ log) = failedSince id log := by
    intro id
    refine since_append fun event hevent hsubject => ?_
    rw [hevents event hevent] at hsubject
    cases hsubject
  have hflagsOf : ∀ id, t'.flagsOf id = t.flagsOf id := fun id => by rw [flagsOf, flagsOf, hflags]
  refine ⟨by rw [hflags, h.size], ?_, ?_⟩
  · intro id hid
    rw [hflagsOf, (hsince id).1, h.available id hid]
  · intro id hid
    rw [hflagsOf, (hsince id).2, h.failed id hid]

/-- The flags of one function change as the log says, which tells the same of the others. -/
theorem Flagged.change {log' : List TierEvent} (h : t.Flagged p log) (hid : id < p.size)
    (hothers : ∀ j, j ≠ id →
      compiledSince j log' = compiledSince j log ∧ failedSince j log' = failedSince j log)
    (havailable : (f (t.flagsOf id)).available = compiledSince id log')
    (hfailed : (f (t.flagsOf id)).failed = failedSince id log') :
    (t.setFlags id f).Flagged p log' := by
  have hsize : id < t.flags.size := by
    rw [h.size]
    exact hid
  refine ⟨by simp [Tier.setFlags, h.size], ?_, ?_⟩
  · intro j hj
    rw [flagsOf_setFlags hsize]
    split
    · rename_i heq
      rw [heq]
      exact havailable
    · rename_i hne
      rw [(hothers j hne).1, h.available j hj]
  · intro j hj
    rw [flagsOf_setFlags hsize]
    split
    · rename_i heq
      rw [heq]
      exact hfailed
    · rename_i hne
      rw [(hothers j hne).2, h.failed j hj]

/-- The flags of one function change, as the event says. -/
theorem Flagged.setFlags (h : t.Flagged p log) (hid : id < p.size) {event : TierEvent}
    (hsubject : event.subject? = some id)
    (havailable : (f (t.flagsOf id)).available = compiledSince id (event :: log))
    (hfailed : (f (t.flagsOf id)).failed = failedSince id (event :: log)) :
    (t.setFlags id f).Flagged p (event :: log) := by
  refine h.change hid ?_ havailable hfailed
  intro j hj
  refine since_cons log ?_
  rw [hsubject]
  exact fun heq => hj (Option.some.inj heq).symm

/-- A function that is claimed is told the same of. -/
theorem Flagged.claimed (h : t.Flagged p log) (hid : id < p.size) :
    (t.claimed id).Flagged p log :=
  h.change hid (fun _ _ => ⟨rfl, rfl⟩) (h.available id hid) (h.failed id hid)

theorem flags_obtain (t : Tier) (e : Nat) (engine : Engine) (id : FunctionId) (s : Script) :
    (t.obtain e engine id s).2.flags = t.flags := by
  have hobtained := obtained t e engine id s
  generalize t.obtain e engine id s = outcome, obtainEvents e engine id s = events at hobtained
  have hacquired : (t.acquireFor e engine).1.flags = t.flags := by
    rw [acquireFor]
    split <;> rfl
  cases hobtained with
  | disabled hdisabled => rfl
  | cached henabled hget => rfl
  | refused henabled hget hrefused => exact hacquired
  | stored henabled hget hcompile hinsert => exact hacquired

theorem subject_obtainEvents : ∀ event ∈ obtainEvents e engine id s, event.subject? = none := by
  have hobtained := obtained {} e engine id s
  generalize ({} : Tier).obtain e engine id s = outcome, obtainEvents e engine id s = events
    at hobtained
  have hreach : ∀ event ∈ reachEvents e engine id, event.subject? = none := by
    rw [reachEvents]
    split <;> simp [TierEvent.subject?]
  cases hobtained with
  | disabled hdisabled => simp
  | cached henabled hget => simp
  | refused henabled hget hrefused => exact hreach
  | stored henabled hget hcompile hinsert =>
    intro event hevent
    rcases List.mem_cons.1 hevent with rfl | hevent
    · rfl
    · exact hreach event hevent

theorem Flagged.obtain (h : t.Flagged p log) (e : Nat) (engine : Engine) (id : FunctionId)
    (s : Script) : (t.obtain e engine id s).2.Flagged p (obtainEvents e engine id s ++ log) :=
  h.append (flags_obtain t e engine id s) subject_obtainEvents

/-- Compiling ends with code. -/
theorem Flagged.compiled (h : t.Flagged p log) (hid : id < p.size)
    (hf : ∀ flags, (f flags).available = true ∧ (f flags).failed = flags.failed) :
    (t.setFlags id f).Flagged p (.compiled e id :: log) := by
  refine h.setFlags hid rfl ?_ ?_
  · rw [(hf _).1, compiledSince, any_sinceInvalidated_cons]
    simp [TierEvent.invalidates, TierEvent.compiles]
  · rw [(hf _).2, h.failed id hid, failedSince, failedSince, any_sinceInvalidated_cons]
    rfl

/-- Compiling fails. -/
theorem Flagged.fails (h : t.Flagged p log) (hid : id < p.size)
    (hf : ∀ flags, (f flags).available = flags.available ∧ (f flags).failed = true) :
    (t.setFlags id f).Flagged p (.failed e id :: log) := by
  refine h.setFlags hid rfl ?_ ?_
  · rw [(hf _).1, h.available id hid, compiledSince, compiledSince, any_sinceInvalidated_cons]
    rfl
  · rw [(hf _).2, failedSince, any_sinceInvalidated_cons]
    simp [TierEvent.invalidates, TierEvent.fails]

theorem Flagged.compileNow (h : t.Flagged p log) (hid : id < p.size) :
    (t.compileNow e id s).2.Flagged p (t.compileEvents e id s ++ log) := by
  have hrequested := requested t e id s
  generalize t.compileNow e id s = outcome, t.compileEvents e id s = events at hrequested
  cases hrequested with
  | absent hengine => exact h
  | @compiled engine code t' hengine hobtain =>
    have hobtained := h.obtain e engine id s
    rw [hobtain] at hobtained
    exact hobtained.compiled hid fun flags => ⟨rfl, rfl⟩
  | @disabled engine t' hengine hobtain =>
    have hobtained := h.obtain e engine id s
    rw [hobtain] at hobtained
    exact hobtained
  | @failed engine err t' hengine hobtain =>
    have hobtained := h.obtain e engine id s
    rw [hobtain] at hobtained
    exact hobtained.fails hid fun flags => ⟨rfl, rfl⟩

theorem Flagged.choose (h : t.Flagged p log) (hid : id < p.size) :
    (choose id s c t).2.Flagged p (t.chooseEvents id s c ++ log) := by
  have hchosen := chosen t id s c
  generalize Tier.choose id s c t = outcome, t.chooseEvents id s c = events at hchosen
  have hclaimed : ∀ e, (t.claimed id).Flagged p ([.started e id] ++ log) := by
    intro e
    exact (h.claimed hid).append rfl (by simp [TierEvent.subject?])
  cases hchosen with
  | settled => exact h
  | @compiled e engine code t' hinstalled hengine hstarts hobtain =>
    have hobtained := (hclaimed e).obtain e engine id s
    rw [hobtain, ← List.append_assoc] at hobtained
    exact hobtained.compiled hid fun flags => ⟨rfl, rfl⟩
  | @failed e engine err t' hinstalled hengine hstarts hobtain =>
    have hobtained := (hclaimed e).obtain e engine id s
    rw [hobtain, ← List.append_assoc] at hobtained
    exact hobtained.fails hid fun flags => ⟨rfl, rfl⟩

theorem Flagged.invalidate (h : t.Flagged p log) (hlive : t.Live e) (hid : id < p.size) :
    (t.invalidate e id).Flagged p (.invalidated e id :: log) := by
  obtain ⟨engine, hengine, _⟩ := hlive
  simp only [Tier.invalidate, hengine]
  have hcached :
      (t.setEngine e { engine with cache := engine.cache.invalidate id }).Flagged p log :=
    ⟨h.size, h.available, h.failed⟩
  refine hcached.setFlags hid rfl ?_ ?_
  · rw [compiledSince, any_sinceInvalidated_cons]
    simp [TierEvent.invalidates, Flags.forget]
  · rw [failedSince, any_sinceInvalidated_cons]
    simp [TierEvent.invalidates, Flags.forget]

theorem lt_size_of_script {s : LoadedScript} (hscript : p.functions[id]? = some (.script s)) :
    id < p.size := (Array.getElem?_eq_some_iff.1 hscript).1

/-- Flags and log agree in every state of a process. -/
theorem flagged_of_process (h : Process p t log) : t.Flagged p log := by
  induction h with
  | start =>
    refine ⟨by simp, ?_, ?_⟩
    · intro id hid
      simp [flagsOf, hid, compiledSince, sinceInvalidated]
    · intro id hid
      simp [flagsOf, hid, failedSince, sinceInvalidated]
  | @step t t' log events _ hstep ih =>
    cases hstep with
    | addEngine config => exact ih.append rfl (by simp)
    | cloneEngine hlive =>
      obtain ⟨engine, hengine, _⟩ := hlive
      simp only [cloneEngine, hengine]
      exact ih.append rfl (by simp)
    | dropEngine hlive hidle =>
      obtain ⟨engine, hengine, _⟩ := hlive
      simp only [dropEngine, dropEvents, hengine]
      split
      · exact ih.append rfl (by simp)
      · exact ih.append rfl (by simp [TierEvent.subject?])
    | compileNow hlive hscript => exact ih.compileNow (lt_size_of_script hscript)
    | invalidate hlive hscript => exact ih.invalidate hlive (lt_size_of_script hscript)
    | clearCache hlive =>
      obtain ⟨engine, hengine, _⟩ := hlive
      simp only [clearCache, hengine]
      exact ih.append rfl (by simp [TierEvent.subject?])
    | claim hscript => exact ih.claimed (lt_size_of_script hscript)
    | install hlive => exact ih.append rfl (by simp)
    | restore hlive => exact ih.append rfl (by simp)
    | choose hscript c => exact ih.choose (lt_size_of_script hscript)
    | acquire hfresh level => exact ih.append rfl (by simp [TierEvent.subject?])
    | share houtside hfresh hsource => exact ih.append rfl (by simp [TierEvent.subject?])
    | drop houtside hheld => exact ih.append rfl (by simp [TierEvent.subject?])

/-! ## Code and flags along a call -/

/-- Whether an engine has valid code for a function. -/
def isCompiled (t : Tier) (e : Nat) (id : FunctionId) : Bool :=
  (t.engines[e]?).any (·.cache.contains id)

theorem isCompiled_setEngine {engine' : Engine} (hengine : t.engines[e]? = some engine) :
    (t.setEngine e engine').isCompiled k j =
      if k = e then engine'.cache.contains j else t.isCompiled k j := by
  rw [isCompiled, getElem?_setEngine hengine]
  by_cases hk : k = e
  · simp [hk]
  · simp [hk, isCompiled]

theorem isCompiled_acquireFor (hengine : t.engines[e]? = some engine) :
    (t.acquireFor e engine).1.isCompiled k j = t.isCompiled k j := by
  rw [isCompiled, getElem?_acquireFor hengine, isCompiled]
  by_cases hk : k = e
  · simp [hk, hengine]
  · simp [hk]

/-- Obtaining code makes a difference only if it succeeds, and only for this engine and this
function. -/
theorem isCompiled_obtain (hengine : t.engines[e]? = some engine) {t' : Tier}
    {outcome : Except CompileError CompiledCode} (h : t.obtain e engine id s = (outcome, t')) :
    t'.isCompiled k j = (t.isCompiled k j || outcome.isOk && k = e && j = id) := by
  have hobtained := obtained t e engine id s
  rw [h] at hobtained
  generalize obtainEvents e engine id s = events at hobtained
  cases hobtained with
  | disabled hdisabled => simp [Except.isOk, Except.toBool]
  | cached henabled hget =>
    -- The code was there before.
    have hcontains : t.isCompiled e id = true := by
      simp [isCompiled, hengine, CodeCache.contains, hget]
    by_cases hsame : k = e ∧ j = id
    · obtain ⟨rfl, rfl⟩ := hsame
      simp [hcontains]
    · simp only [Except.isOk, Except.toBool, Bool.true_and]
      rcases not_and_or.1 hsame with hne | hne <;> simp [hne]
  | refused henabled hget hrefused =>
    rw [isCompiled_acquireFor hengine]
    simp [Except.isOk, Except.toBool]
  | @stored code cache henabled hget hcompile hinsert =>
    have hacquired := getElem?_acquireFor hengine e
    rw [if_pos rfl] at hacquired
    refine (isCompiled_setEngine
      (t := { (t.acquireFor e engine).1 with codeMemory := _ }) hacquired).trans ?_
    show (if k = e then cache.contains j else (t.acquireFor e engine).1.isCompiled k j) = _
    rw [isCompiled_acquireFor hengine]
    by_cases hk : k = e
    · subst hk
      rw [if_pos rfl, CodeCache.contains_insert hinsert]
      simp [isCompiled, hengine, Except.isOk, Except.toBool]
    · simp [hk]

/-- How code and flags of a function develop while calls run: what is available stays so, code stays
in a cache, and code for a function that is available does not come to another cache. -/
structure Settled (e : Nat) (id : FunctionId) (t t' : Tier) : Prop where
  size : t'.flags.size = t.flags.size
  available : (t.flagsOf id).available = true → (t'.flagsOf id).available = true
  compiled : t.isCompiled e id = true → t'.isCompiled e id = true
  none_other : (t.flagsOf id).available = true → t'.isCompiled e id = true →
    t.isCompiled e id = true

theorem Settled.refl : Settled e id t t := ⟨rfl, fun h => h, fun h => h, fun _ h => h⟩

theorem Settled.trans {t₁ t₂ t₃ : Tier} (h₁ : Settled e id t₁ t₂) (h₂ : Settled e id t₂ t₃) :
    Settled e id t₁ t₃ where
  size := h₂.size.trans h₁.size
  available h := h₂.available (h₁.available h)
  compiled h := h₂.compiled (h₁.compiled h)
  none_other havailable h := h₁.none_other havailable (h₂.none_other (h₁.available havailable) h)

/-- A function whose compilation starts is not available. -/
theorem not_available_of_starts (h : t.starts engine id s c = true) :
    (t.flagsOf id).available = false := by
  simp only [starts, CompilationPolicy.shouldCompile, Bool.and_eq_true, Bool.not_eq_true'] at h
  exact h.1.2.1.1.1.1

/-- Compiling function `j` in engine `k` leaves function `id` settled: it is another function, or
one that was not available. -/
theorem settled_compile {t' : Tier} {f : Flags → Flags}
    {outcome : Except CompileError CompiledCode} (hj : j < t.flags.size)
    (hengine : t.engines[k]? = some engine) (hstarts : t.starts engine j s c = true)
    (hobtain : (t.claimed j).obtain k engine j s = (outcome, t'))
    (hf : ∀ flags, flags.available = true → (f flags).available = true) :
    Settled e id t (t'.setFlags j f) := by
  have hflags : t'.flags = (t.claimed j).flags := by
    have hflags := flags_obtain (t.claimed j) k engine j s
    rw [hobtain] at hflags
    exact hflags
  have hsize : t'.flags.size = t.flags.size := by simp [hflags, claimed, setFlags]
  have hflagsOf : (t'.flagsOf id).available = (t.flagsOf id).available := by
    rw [flagsOf, hflags, ← flagsOf, claimed, flagsOf_setFlags hj]
    split
    · rename_i heq
      rw [heq]
      rfl
    · rfl
  have hcompiled : t'.isCompiled e id =
      (t.isCompiled e id || outcome.isOk && e = k && id = j) :=
    isCompiled_obtain (t := t.claimed j) hengine hobtain
  refine ⟨?_, ?_, ?_, ?_⟩
  · simp [setFlags, hsize]
  · intro havailable
    rw [flagsOf_setFlags (hsize ▸ hj)]
    split
    · rename_i heq
      subst heq
      exact hf _ (hflagsOf.trans havailable)
    · exact hflagsOf.trans havailable
  · intro h
    show t'.isCompiled e id = true
    rw [hcompiled, h]
    rfl
  · intro havailable h
    change t'.isCompiled e id = true at h
    have hne : id ≠ j := by
      rintro rfl
      rw [not_available_of_starts hstarts] at havailable
      cases havailable
    simpa [hcompiled, hne] using h

/-- Every choice leaves every function settled in every engine. -/
theorem settled_choose (e : Nat) (id : FunctionId) (hj : j < t.flags.size) :
    Settled e id t (choose j s c t).2 := by
  have hchosen := chosen t j s c
  generalize choose j s c t = outcome, t.chooseEvents j s c = events at hchosen
  cases hchosen with
  | settled => exact .refl
  | compiled hinstalled hengine hstarts hobtain =>
    exact settled_compile hj hengine hstarts hobtain fun _ _ => rfl
  | failed hinstalled hengine hstarts hobtain =>
    exact settled_compile hj hengine hstarts hobtain fun _ h => h

/-- So does every invocation. -/
theorem settled_respects (hsize : t.flags.size = p.size) :
    Tier.dispatcher.Respects p (Settled e id t) where
  choose {j s c t'} hscript h := by
    refine h.trans (settled_choose e id ?_)
    rw [h.size, hsize]
    exact lt_size_of_script hscript
  install _ h := ⟨h.size, h.available, h.compiled, h.none_other⟩
  restore _ h := ⟨h.size, h.available, h.compiled, h.none_other⟩

/-! ## Hot calls -/

/-- A verified script compiles, to code of the size that the code generator gives it. -/
theorem compile_of_verify (id : FunctionId) (capture : Bool) (hverify : s.verify = .ok ()) :
    ∃ code, compile id s capture = .ok code ∧ code.size = s.codeSize := by
  obtain ⟨ops, hlower, _⟩ := lowerCode_found hverify
  rw [compile, hverify]
  simp only [hlower]
  exact ⟨_, rfl, rfl⟩

/-- An engine obtains code for a verified script if there is room for it. -/
theorem obtain_ok (henabled : engine.config.enabled = true) (hcache : engine.cache.WellKept)
    (hverify : s.verify = .ok ())
    (hfits : engine.cache.others id + s.codeSize ≤ engine.cache.limit) :
    ∃ code t', t.obtain e engine id s = (.ok code, t') := by
  obtain ⟨code, hcompile, hcode⟩ := compile_of_verify id engine.config.captureListing hverify
  rw [← hcode] at hfits
  have hinsert := hcache.insert_eq_ok_iff.2 ⟨hfits, rfl⟩
  have hobtained := obtained t e engine id s
  generalize t.obtain e engine id s = outcome, obtainEvents e engine id s = events at hobtained
  cases hobtained with
  | disabled hdisabled =>
    rw [henabled] at hdisabled
    cases hdisabled
  | cached _ hget => exact ⟨_, _, rfl⟩
  | refused _ hget hrefused => exact absurd hinsert (hrefused _ _ hcompile)
  | stored _ hget _ _ => exact ⟨_, _, rfl⟩

/-- A call of a function through an engine that should compile it: the function is hot with this
call, and nothing stands in the way.  It is verified, not too long and fits into the cache, nobody
has claimed it, and compiling it has not failed since it was last invalidated. -/
structure HotCall (p : Program) (amb : Ambient Tier) (log : List TierEvent) (e : Nat)
    (engine : Engine) (id : FunctionId) (s : LoadedScript) : Prop where
  process : Process p amb.tier log
  present : amb.tier.engines[e]? = some engine
  live : 0 < engine.handles
  enabled : engine.config.enabled = true
  script : p.functions[id]? = some (.script s)
  verified : s.script.verify = .ok ()
  size : s.script.code.size ≤ engine.config.policy.maxFunctionSize
  fits : engine.cache.others id + s.script.codeSize ≤ engine.cache.limit
  unfailed : failedSince id log = false
  unclaimed : (amb.tier.flagsOf id).compiling = false
  hot : engine.config.policy.callThreshold ≤ ((amb.countCall id).counters.getD id {}).calls

variable {amb : Ambient Tier} {s : LoadedScript}

/-- The engine starts to compile unless it has the code, or some engine has compiled the function
since it was last invalidated. -/
theorem HotCall.starts_eq (h : HotCall p amb log e engine id s) :
    amb.tier.starts engine id s.script ((amb.countCall id).counters.getD id {}) =
      (!amb.tier.isCompiled e id && !compiledSince id log) := by
  have hflagged := flagged_of_process h.process
  have hid := lt_size_of_script h.script
  have hcompiled : amb.tier.isCompiled e id = (engine.cache.get? id).isSome := by
    simp [isCompiled, h.present, CodeCache.contains]
  have havailable := hflagged.available id hid
  have hfailed := (hflagged.failed id hid).trans h.unfailed
  simp only [starts, CompilationPolicy.shouldCompile, Flags.tryStart, h.enabled, h.unclaimed,
    hfailed, havailable, h.size, h.hot, hcompiled]
  cases engine.cache.get? id <;> simp

/-- At the call, the function is compiled, or it is left to the interpreter because it is
available. -/
theorem HotCall.choose_cases (h : HotCall p amb log e engine id s) (after : Tier)
    (hafter : (choose id s.script ((amb.countCall id).counters.getD id {})
      (install e amb.tier)).2 = after) :
    after.isCompiled e id = (amb.tier.isCompiled e id || !compiledSince id log) ∧
      (after.isCompiled e id = false → (after.flagsOf id).available = true) := by
  have hid := lt_size_of_script h.script
  have hcache := ((accounts_of_process h.process).engines e engine h.present).cache
  have hengine : (install e amb.tier).engines[e]? = some engine := h.present
  have hstarts : (install e amb.tier).starts engine id s.script
      ((amb.countCall id).counters.getD id {}) = _ := h.starts_eq
  have hinstalled : (install e amb.tier).installed = some e := rfl
  have hchoose : choose id s.script ((amb.countCall id).counters.getD id {}) (install e amb.tier) =
      (install e amb.tier).chooseIn e engine id s.script
        ((amb.countCall id).counters.getD id {}) := by
    simp only [choose, hinstalled, hengine]
  rw [hchoose, chooseIn_eq, hstarts] at hafter
  by_cases hcase : amb.tier.isCompiled e id = false ∧ compiledSince id log = false
  · obtain ⟨hfresh, hunavailable⟩ := hcase
    obtain ⟨code, t', hobtain⟩ := obtain_ok (t := (install e amb.tier).claimed id) (e := e)
      h.enabled hcache h.verified h.fits
    simp only [hfresh, hunavailable, Bool.not_false, Bool.and_self, if_true, hobtain] at hafter
    subst hafter
    have hcompiled : t'.isCompiled e id = true := by
      rw [isCompiled_obtain (t := (install e amb.tier).claimed id) hengine hobtain]
      simp [Except.isOk, Except.toBool]
    have hstored : (t'.setFlags id Flags.finish).isCompiled e id = true := hcompiled
    rw [hstored, hunavailable]
    simp
  · -- The engine has the code, or the flags keep it from compiling: the state is as it was.
    have hsettled : (!amb.tier.isCompiled e id && !compiledSince id log) = false := by
      cases hcompiled : amb.tier.isCompiled e id with
      | true => rfl
      | false =>
        cases hsince : compiledSince id log with
        | true => rfl
        | false => exact absurd ⟨hcompiled, hsince⟩ hcase
    rw [hsettled] at hafter
    simp only [Bool.false_eq_true, if_false] at hafter
    subst hafter
    show amb.tier.isCompiled e id = _ ∧ (amb.tier.isCompiled e id = false → _)
    have havailable := (flagged_of_process h.process).available id hid
    refine ⟨?_, ?_⟩
    · cases hcompiled : amb.tier.isCompiled e id with
      | true => rfl
      | false =>
        rw [hcompiled] at hsettled
        simpa using hsettled
    · intro hcompiled
      rw [hcompiled] at hsettled
      have hsince : compiledSince id log = true := by simpa using hsettled
      exact havailable.trans hsince

end Tier

open Tier

/-- A hot function that is called through an engine is compiled in that engine when the call returns
if it was so before, or if no engine has compiled it since it was last invalidated, and not
otherwise. -/
theorem hot_function_compiled {amb : Ambient Tier} {engine : Engine} {s : LoadedScript}
    (h : HotCall p amb log e engine id s) {fuel : Nat} {args : List Argument}
    {slots : ReturnSlots} {memory : Memory} {r : Result Tier}
    (hcall : engineCall p fuel e id args slots memory amb = .ok r) :
    r.ambient.tier.isCompiled e id = true ↔
      amb.tier.isCompiled e id = true ∨ compiledSince id log = false := by
  rw [engineCall] at hcall
  split at hcall
  · cases hcall
  · rename_i inner hrun
    cases hcall
    let v : Invocation Tier :=
      ⟨fuel, id, args, slots, memory, { amb with tier := amb.tier.install e }⟩
    let chosen := (Tier.dispatcher.dispatch id s.script v.ambient).2.tier
    obtain ⟨hcompiled, havailable⟩ := h.choose_cases chosen rfl
    have hflagged := flagged_of_process h.process
    have hid : id < (install e amb.tier).flags.size := by
      show id < amb.tier.flags.size
      rw [hflagged.size]
      exact lt_size_of_script h.script
    have hsize : chosen.flags.size = p.size :=
      (settled_choose e id hid).size.trans hflagged.size
    -- From the choice on, nothing changes that matters here.
    have hsettled : Settled e id chosen inner.ambient.tier :=
      run_respects_dispatch (settled_respects hsize) (v := v) h.script hrun .refl
    have hsame : inner.ambient.tier.isCompiled e id = chosen.isCompiled e id := by
      cases hchosen : chosen.isCompiled e id with
      | true => exact hsettled.compiled hchosen
      | false =>
        cases hinner : inner.ambient.tier.isCompiled e id with
        | false => rfl
        | true =>
          have hbefore := hsettled.none_other (havailable hchosen) hinner
          rw [hchosen] at hbefore
          cases hbefore
    show inner.ambient.tier.isCompiled e id = true ↔ _
    rw [hsame, hcompiled]
    simp

/-- The engine of `eagerTier`. -/
def eagerEngineState : Engine where
  config := { policy := { callThreshold := 0 }, optLevel := .none }
  cache := { limit := 67108864 }

/-- The first call of a function through an engine that compiles at once. -/
theorem hot_function_compiled_firstCall :
    HotCall emptyScript eagerAmbient [] 0 eagerEngineState 0 emptyFunction ∧
      ∃ r, engineCall emptyScript 2 0 0 [] (.fresh []) {} eagerAmbient = .ok r ∧
        r.ambient.tier.isCompiled 0 0 = true := by
  have hhot : HotCall emptyScript eagerAmbient [] 0 eagerEngineState 0 emptyFunction :=
    { process := process_eagerTier
      present := rfl
      live := by decide
      enabled := rfl
      script := rfl
      verified := by decide
      size := by decide
      fits := by decide
      unfailed := rfl
      unclaimed := rfl
      hot := by decide }
  obtain ⟨r, hr⟩ : ∃ r, engineCall emptyScript 2 0 0 [] (.fresh []) {} eagerAmbient = .ok r :=
    ⟨_, rfl⟩
  exact ⟨hhot, r, hr, (hot_function_compiled hhot hr).2 (.inr rfl)⟩

/-- The state around calls, once the cache of an engine is cleared. -/
def Ambient.clearCache (amb : Ambient Tier) (e : Nat) : Ambient Tier :=
  { amb with tier := amb.tier.clearCache e }

/-- A hot function whose code was cleared from the cache stays interpreted: it is not compiled again
when it is called, although nothing stands in the way. -/
theorem hot_function_stays_interpreted :
    ∃ (first second : Result Tier) (log : List TierEvent) (engine : Engine),
      engineCall emptyScript 2 0 0 [] (.fresh []) {} eagerAmbient = .ok first ∧
        first.ambient.tier.isCompiled 0 0 = true ∧
        HotCall emptyScript (first.ambient.clearCache 0) log 0 engine 0 emptyFunction ∧
        engineCall emptyScript 2 0 0 [] (.fresh []) {} (first.ambient.clearCache 0) = .ok second ∧
        second.ambient.tier.isCompiled 0 0 = false := by
  have hscript : emptyScript.functions[0]? = some (.script emptyFunction) := rfl
  have hlive : eagerTier.Live 0 := ⟨_, rfl, by decide⟩
  -- The first call routes calls through the engine, compiles the function, and routes calls back.
  let chosen := (choose 0 emptyFunction.script { calls := 1 } (install 0 eagerTier)).2
  let returned : Ambient Tier :=
    { counters := #[{ calls := 1 }], tier := eagerTier.restore chosen }
  let log := (install 0 eagerTier).chooseEvents 0 emptyFunction.script { calls := 1 } ++ []
  have hchosen : Process emptyScript chosen log :=
    (process_eagerTier.step (.install hlive)).step (.choose hscript _)
  have hreturned : Process emptyScript returned.tier ([] ++ log) :=
    hchosen.step (.restore fun e he => nomatch he)
  have hlive' : returned.tier.Live 0 := ⟨_, rfl, Nat.zero_lt_one⟩
  have hhot : HotCall emptyScript (returned.clearCache 0) ([.cleared 0] ++ ([] ++ log)) 0
      { eagerEngineState with acquired := true } 0 emptyFunction :=
    { process := hreturned.step (.clearCache hlive')
      present := rfl
      live := Nat.zero_lt_one
      enabled := rfl
      script := hscript
      verified := by decide
      size := by decide
      fits := by decide
      unfailed := rfl
      unclaimed := rfl
      hot := by decide }
  obtain ⟨first, hfirst, hambient⟩ : ∃ first,
      engineCall emptyScript 2 0 0 [] (.fresh []) {} eagerAmbient = .ok first ∧
        first.ambient = returned := ⟨_, rfl, rfl⟩
  obtain ⟨second, hsecond, hinterpreted⟩ : ∃ second,
      engineCall emptyScript 2 0 0 [] (.fresh []) {} (returned.clearCache 0) = .ok second ∧
        second.ambient.tier.isCompiled 0 0 = false := ⟨_, rfl, rfl⟩
  have hcompiled : first.ambient.tier.isCompiled 0 0 = true := by
    rw [hambient]
    rfl
  rw [← hambient] at hhot hsecond
  exact ⟨first, second, _, _, hfirst, hcompiled, hhot, hsecond, hinterpreted⟩

end TierVm
