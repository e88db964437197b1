import TierVm.Proofs.Paths

/-!
# Native functions that call back

A native function may call other functions, directly or through an engine.  What its calls can do
to the state of the dispatcher depends on the engines that it goes through.

* `HostProgram.CallsVia` says that a host program can come to a call through a given engine, or
  to a call without one.  Steps of the host program only take such calls away
  (`callsVia_of_hostReaches`).
* `Dispatcher.Respects` is an invariant of the dispatcher's state that every choice keeps, and
  every call through an engine that native functions of the program go through.
* `invoke_respects` carries it over every invocation, and `visits_respects` and
  `within_respects` to every moment of one.
-/

namespace TierVm

variable {σ : Type}

/-! ## The calls of a host program -/

/-- The host program can come to a call that it makes through engine `via`, or without an engine,
depending on what it learns of the memory and of other calls. -/
def HostProgram.CallsVia (via : Option Nat) : HostProgram → Prop
  | .finish _ | .fail _ => False
  | .write _ _ next => next.CallsVia via
  | .locate _ next => ∃ p, (next p).CallsVia via
  | .load _ _ next => ∃ bytes, (next bytes).CallsVia via
  | .store _ _ next => next.CallsVia via
  | .alloc _ next => ∃ result, (next result).CallsVia via
  | .call through _ _ _ next => through = via ∨ ∃ report, (next report).CallsVia via

/-- A native function of the program can make a call through engine `via`, or without one. -/
def Program.CallsVia (p : Program) (via : Option Nat) : Prop :=
  ∃ (id : FunctionId) (n : Native) (values : List Value) (slots : Nat),
    p.functions[id]? = some (.native n) ∧ (n.body values slots).CallsVia via

section

variable {d : Dispatcher σ} {call : Invoke σ} {args : List Argument} {via : Option Nat}

/-- A call that is still to come after a step was to come before it. -/
theorem callsVia_of_hostMoves {before after : HostState σ}
    (h : HostMoves d call args before after) (hcalls : after.program.CallsVia via) :
    before.program.CallsVia via := by
  cases h with
  | write hwrite => exact hcalls
  | locate => exact ⟨_, hcalls⟩
  | load hread => exact ⟨_, hcalls⟩
  | store hwrite => exact hcalls
  | alloc halloc => exact ⟨_, hcalls⟩
  | refused halloc => exact ⟨_, hcalls⟩
  | call hpassed hcall => exact .inr ⟨_, hcalls⟩

/-- A call that is still to come after any number of steps was to come before them. -/
theorem callsVia_of_hostReaches {first last : HostState σ}
    (h : HostReaches d call args first last) (hcalls : last.program.CallsVia via) :
    first.program.CallsVia via := by
  induction h with
  | refl => exact hcalls
  | tail _ hmove ih => exact ih (callsVia_of_hostMoves hmove hcalls)

end

/-- A native function that stands at a call makes it through an engine that its program goes
through. -/
theorem Program.callsVia_of_call {p : Program} {d : Dispatcher σ} {call : Invoke σ}
    {v : Invocation σ} {n : Native} (hnative : p.functions[v.id]? = some (.native n))
    {via : Option Nat} {callee : FunctionId} {passed : List Passed} {classes : List RegClass}
    {next : Except ScriptException (List Value) → HostProgram} {slots : ReturnSlots}
    {memory : Memory} {amb : Ambient σ}
    (hreach : HostReaches d call v.args (v.hostState n)
      ⟨.call via callee passed classes next, slots, memory, amb⟩) : p.CallsVia via :=
  ⟨v.id, n, v.values, v.slots.size, hnative, callsVia_of_hostReaches hreach (.inl rfl)⟩

/-! ## Invariants of the dispatcher's state -/

/-- An invariant of the dispatcher's state that choices keep, and calls through the engines that
native functions of the program go through. -/
structure Dispatcher.Respects (d : Dispatcher σ) (p : Program) (J : σ → Prop) : Prop where
  choose : ∀ {id : FunctionId} {s : LoadedScript} {c : Counters} {t : σ},
    p.functions[id]? = some (.script s) → J t → J (d.choose id s.script c t).2
  install : ∀ {e : Nat} {t : σ}, p.CallsVia (some e) → J t → J (d.install e t)
  restore : ∀ {before after : σ}, J before → J after → J (d.restore before after)

/-- Every call that comes to a result keeps an invariant of the dispatcher's state. -/
def CallRespects (J : σ → Prop) (call : Invoke σ) : Prop :=
  ∀ ⦃id args slots memory amb r⦄, call id args slots memory amb = .ok r → J amb.tier →
    J r.ambient.tier

section

variable {p : Program} {d : Dispatcher σ} {J : σ → Prop}

theorem moves_respects {functions : Nat} {call : Invoke σ} (hcall : CallRespects J call)
    {self : FunctionId} {effectAt : Activation → Option (Except Trap Effect)}
    {before after : Activation × Ambient σ}
    (h : Moves functions call self effectAt before after) (hJ : J before.2.tier) :
    J after.2.tier := by
  cases h with
  | next heffect hperform =>
    split
    · exact hJ
    · exact hJ
  | call heffect hperform hcallee hrun hfinished => exact hcall hrun hJ

theorem reaches_respects {functions : Nat} {call : Invoke σ} (hcall : CallRespects J call)
    {self : FunctionId} {effectAt : Activation → Option (Except Trap Effect)}
    {first last : Activation × Ambient σ}
    (h : Reaches functions call self effectAt first last) (hJ : J first.2.tier) :
    J last.2.tier := by
  induction h with
  | refl => exact hJ
  | tail _ hmove ih => exact moves_respects hcall hmove ih

theorem ends_respects {functions : Nat} {call : Invoke σ} (hcall : CallRespects J call)
    {self : FunctionId} {effectAt : Activation → Option (Except Trap Effect)}
    {last : Activation × Ambient σ} {r : Result σ}
    (h : Ends functions call self effectAt last r) (hJ : J last.2.tier) : J r.ambient.tier := by
  cases h with
  | falls heffect => exact hJ
  | raises heffect => exact hJ
  | leaves heffect hperform => exact hJ
  | propagates heffect hperform hcallee hrun haborted =>
    have hafter := hcall hrun hJ
    exact hafter

/-- The frame that is popped at the end is no matter of the dispatcher. -/
theorem tier_leaveFrame (r : Result σ) : (leaveFrame r).ambient.tier = r.ambient.tier := by
  rw [leaveFrame]
  split
  · rfl
  · split <;> rfl

variable (hd : d.Respects p J)

include hd

/-- A call that a native function makes, with the engine put back. -/
theorem returning_respects {call : Invoke σ} (hcall : CallRespects J call) {via : Option Nat}
    (hvia : p.CallsVia via) {id : FunctionId} {args : List Argument} {slots : ReturnSlots}
    {memory : Memory} {amb : Ambient σ} {r : Result σ}
    (h : call id args slots memory (d.outgoing via amb) = .ok r) (hJ : J amb.tier) :
    J (d.returning via amb r.ambient).tier := by
  cases via with
  | none => exact hcall h hJ
  | some e => exact hd.restore hJ (hcall h (hd.install hvia hJ))

/-- The steps of a native function of the program, up to any moment. -/
theorem hostReaches_respects {call : Invoke σ} (hcall : CallRespects J call) {v : Invocation σ}
    {n : Native} (hnative : p.functions[v.id]? = some (.native n)) {last : HostState σ}
    (h : HostReaches d call v.args (v.hostState n) last) (hJ : J v.ambient.tier) :
    J last.ambient.tier := by
  induction h with
  | refl => exact hJ
  | tail hreach hmove ih =>
    cases hmove with
    | write hwrite => exact ih
    | locate => exact ih
    | load hread => exact ih
    | store hwrite => exact ih
    | alloc halloc => exact ih
    | refused halloc => exact ih
    | call hpassed hrun =>
      have hvia := Program.callsVia_of_call hnative hreach
      exact returning_respects hd hcall hvia hrun ih

/-- The activation of an invocation starts after one choice. -/
theorem starts_respects {v : Invocation σ} {s : LoadedScript}
    {effectAt : Activation → Option (Except Trap Effect)} {first : Activation × Ambient σ}
    (h : Starts p d v s effectAt first) (hJ : J v.ambient.tier) : J first.2.tier := by
  have hdispatched : J (d.dispatch v.id s.script v.ambient).2.tier := hd.choose h.script hJ
  cases h with
  | interpreted hscript hchoice hverdict hpush =>
    rw [hchoice] at hdispatched
    exact hdispatched
  | compiled hscript hchoice hpush =>
    rw [hchoice] at hdispatched
    exact hdispatched

/-- Every invocation keeps the invariant.  The induction is over the fuel, which bounds how deep
calls are nested. -/
theorem invoke_respects (fuel : Nat) : CallRespects J (invoke p d fuel) := by
  induction fuel with
  | zero =>
    intro id args slots memory amb r h
    cases h
  | succ fuel ih =>
    intro id args slots memory amb r h hJ
    obtain ⟨fuel', hfuel, hrun⟩ :=
      Invocation.run_ok (v := ⟨fuel + 1, id, args, slots, memory, amb⟩) h
    cases hfuel
    obtain ⟨n, last, hnative, hreach, hend⟩ | ⟨s, e, hrefused, rfl⟩ |
      ⟨s, effectAt, first, last, r', hstart, hreach, hend, rfl⟩ := hrun
    · have hlast := hostReaches_respects hd ih hnative hreach hJ
      cases hend <;> exact hlast
    · exact hd.choose hrefused.script hJ
    · rw [tier_leaveFrame]
      have hfirst := starts_respects hd hstart hJ
      exact ends_respects ih hend (reaches_respects ih hreach hfirst)

/-- An invariant that holds once it is decided how a script runs holds when it has run. -/
theorem run_respects_dispatch {v : Invocation σ} {s : LoadedScript} {r : Result σ}
    (hscript : p.functions[v.id]? = some (.script s)) (h : v.run p d = .ok r)
    (hJ : J (d.dispatch v.id s.script v.ambient).2.tier) : J r.ambient.tier := by
  obtain ⟨fuel, hfuel, hrun⟩ := Invocation.run_ok h
  have hcall := invoke_respects hd fuel
  obtain ⟨n, last, hnative, _, _⟩ | ⟨s', e, hrefused, rfl⟩ |
    ⟨s', effectAt, first, last, r', hstart, hreach, hend, rfl⟩ := hrun
  · cases hscript.symm.trans hnative
  · cases hscript.symm.trans hrefused.script
    exact hJ
  · cases hscript.symm.trans hstart.script
    rw [tier_leaveFrame]
    refine ends_respects hcall hend (reaches_respects hcall hreach ?_)
    cases hstart with
    | interpreted _ hchoice hverdict hpush =>
      rw [hchoice] at hJ
      exact hJ
    | compiled _ hchoice hpush =>
      rw [hchoice] at hJ
      exact hJ

/-- The invariant holds at every moment of an invocation. -/
theorem visits_respects {v : Invocation σ} {amb : Ambient σ} (h : Visits p d v amb)
    (hJ : J v.ambient.tier) : J amb.tier := by
  cases h with
  | enters => exact hJ
  | script hfuel hstart hreach =>
    exact reaches_respects (invoke_respects hd _) hreach (starts_respects hd hstart hJ)
  | native hfuel hnative hreach =>
    exact hostReaches_respects hd (invoke_respects hd _) hnative hreach hJ

/-- The invariant holds at the start of all invocations of a run. -/
theorem within_respects {v w : Invocation σ} (h : Within p d v w) (hJ : J v.ambient.tier) :
    J w.ambient.tier := by
  induction h with
  | refl => exact hJ
  | tail _ hmakes ih =>
    cases hmakes with
    | script hfuel hstart hreach heffect hperform hcallee =>
      exact visits_respects hd (.script hfuel hstart hreach) ih
    | native hfuel hnative hreach hpassed =>
      rename_i via _ _ _ _ _ _ _ _
      have hvia := Program.callsVia_of_call hnative hreach
      have hamb := visits_respects hd (.native hfuel hnative hreach) ih
      cases via with
      | none => exact hamb
      | some e => exact hd.install hvia hamb

end

end TierVm
