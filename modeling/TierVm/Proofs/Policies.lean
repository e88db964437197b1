import TierVm.Proofs.AmbientKept
import TierVm.Proofs.VerifiedRuns

/-!
# Policies

A dispatcher decides at every invocation of a script whether it runs as compiled code.  It is a
policy for a program if it does so by the rules: it hands out compiled code for verified scripts
only, and the code is what the script is lowered to.

* `Dispatcher.Policy` is that condition, with an invariant of the dispatcher's state.
* `Dispatcher.interpreting` and `Dispatcher.compiling` are the two extremes.
* `Tier.policy`: engines are a policy, whatever their configuration.  With `compiled_of_history`
  this covers engines after any history.
* `Starts.mode` says which activations an invocation sets up under a policy.
-/

namespace TierVm

open Lowering

variable {σ : Type} {p : Program}

/-- While its state satisfies an invariant, the dispatcher chooses compiled code only for verified
scripts, and the code is what the script is lowered to. -/
structure Dispatcher.Policy (d : Dispatcher σ) (p : Program) (I : σ → Prop) : Prop where
  lowered : ∀ {id : FunctionId} {s : LoadedScript} {c : Counters} {t : σ} {code : CompiledCode},
    I t → p.functions[id]? = some (.script s) → (d.choose id s.script c t).1 = some code →
    s.script.verify = .ok () ∧ lowerCode s.script = .ok code.ops
  choose : ∀ {id : FunctionId} {s : LoadedScript} {c : Counters} {t : σ},
    I t → p.functions[id]? = some (.script s) → I (d.choose id s.script c t).2
  install : ∀ {e : Nat} {t : σ}, I t → I (d.install e t)
  restore : ∀ {before t : σ}, I before → I t → I (d.restore before t)

/-- The invariant of a policy survives every run. -/
theorem Dispatcher.Policy.keeps {d : Dispatcher σ} {I : σ → Prop} (hd : d.Policy p I) :
    d.Keeps p fun t t' => I t → I t' where
  refl _ h := h
  trans h₁ h₂ h := h₂ (h₁ h)
  choose _ _ hscript h := hd.choose h hscript
  excursion h hI := hd.restore hI (h (hd.install hI))

/-! ## Instances -/

/-- Interpret every script. -/
def Dispatcher.interpreting : Dispatcher Unit where
  choose _ _ _ t := (none, t)
  install _ t := t
  restore _ t := t

/-- Compile every script that can be compiled. -/
def Dispatcher.compiling : Dispatcher Unit where
  choose id s _ t := ((compile id s false).toOption, t)
  install _ t := t
  restore _ t := t

theorem Dispatcher.interpreting_policy (p : Program) :
    Dispatcher.interpreting.Policy p fun _ => True where
  lowered _ _ hcode := nomatch hcode
  choose _ _ := trivial
  install _ := trivial
  restore _ _ := trivial

theorem Dispatcher.compiling_policy (p : Program) :
    Dispatcher.compiling.Policy p fun _ => True where
  lowered {id s c t code} _ _ hcode := by
    change (compile id s.script false).toOption = some code at hcode
    cases hcompile : compile id s.script false with
    | error e =>
      rw [hcompile] at hcode
      cases hcode
    | ok code' =>
      rw [hcompile] at hcode
      cases hcode
      exact compile_ok hcompile
  choose _ _ := trivial
  install _ := trivial
  restore _ _ := trivial

/-- Engines whose caches hold compiled code of the program are a policy. -/
theorem Tier.policy (p : Program) : Tier.dispatcher.Policy p (Tier.Compiled p) where
  lowered {id s c t code} hcompiled hscript hcode := by
    obtain ⟨s', capture, hscript', hcompile⟩ := (evolves_choose hscript c t).2 hcompiled hcode
    rw [hscript] at hscript'
    cases hscript'
    exact compile_ok hcompile
  choose hcompiled hscript := (evolves_choose hscript _ _).1.compiled hcompiled
  install h := h
  restore _ h := h

/-! ## Activations under a policy -/

/-- An invocation under a policy starts an activation of a verified script in one of the two modes,
with the invariant intact. -/
theorem Starts.mode {d : Dispatcher σ} {I : σ → Prop} (hd : d.Policy p I) {v : Invocation σ}
    (hI : I v.ambient.tier) {s : LoadedScript}
    {effectAt : Activation → Option (Except Trap Effect)} {first : Activation × Ambient σ}
    (h : Starts p d v s effectAt first) :
    s.script.verify = .ok () ∧ Mode s.script effectAt ∧ first.1.Fits s.script ∧
      I first.2.tier := by
  have hverified : s.script.verify = .ok () ∧ Mode s.script effectAt := by
    cases h with
    | interpreted hscript hchoice hverdict hpush =>
      rw [s.verdict_eq] at hverdict
      exact ⟨hverdict, .interpreted⟩
    | compiled hscript hchoice hpush =>
      obtain ⟨hverify, hlower⟩ := hd.lowered hI hscript (congrArg Prod.fst hchoice)
      exact ⟨hverify, .compiled hlower⟩
  obtain ⟨amb, frame, frames, hkept, hpush, rfl⟩ := starts_kept hd.keeps h
  exact ⟨hverified.1, hverified.2, fits_start hverified.1 hpush _ _, hkept.2 hI⟩

end TierVm
