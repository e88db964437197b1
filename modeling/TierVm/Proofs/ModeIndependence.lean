import TierVm.Proofs.Records
import TierVm.Proofs.ResultCells

/-!
# Mode independence

Two runs of one invocation under two policies look the same from outside.  They may differ in how
often functions jumped backwards while interpreted, and in the states of the dispatchers.

* `Step.lowered` is what remains of a step when backward jumps are not told apart.  `Mode.same`
  says that two modes of a verified script take the same step, up to that.
* `Ambient.Agree` is the simulation relation.  `Matches` relates two runs, of which the first may
  run out of fuel before the second.
* `turn_matches` is one instruction, `runActivation_matches` a run of instructions,
  `runHost_matches` the steps of a native function, and `invoke_matches` the induction over the
  nesting of calls.
* `SameRecords` compares what two runs leave of the record of their caller.
* `mode_independence` is the result.  It needs calls to name no register twice, and a record without
  a payload if the payload is to be the same, and says what goes wrong otherwise.

Compiled code gets the numbers of arguments and of slots as signed words of 32 bits, and the
interpreter does not.  All of this is about calls with fewer than `2 ^ 31` of either, for which
`ReturnSlots.signed_size` says that it makes no difference.
-/

namespace TierVm

open Lowering Lowered

/-! ## One instruction in two modes -/

/-- A step, with backward jumps not told apart. -/
def Step.lowered : Step → Step
  | .next act _ => .next act false
  | step => step

/-- A call made by the effect has distinct targets. -/
def Effect.DistinctResults : Effect → Prop
  | .call _ _ _ targets _ => DistinctTargets targets
  | _ => True

/-- Carrying out the effect of compiled code. -/
theorem perform_lowered {act : Activation} {e : Effect} (h : e.DistinctResults) :
    (act.perform e.lowered).map Step.lowered = (act.perform e).map Step.lowered := by
  cases e with
  | call callee first count targets cells =>
    have hslots : act.callSlots targets .scratch = act.callSlots targets cells := by
      cases cells with
      | registers => exact callSlots_scratch h act
      | scratch => rfl
    simp only [Effect.lowered, Activation.perform, hslots]
  | _ => rfl

section Mode

variable {s : Script} {act : Activation} {effectAt : Activation → Option (Except Trap Effect)}

theorem Effect.lowered_lowered (e : Effect) : e.lowered.lowered = e.lowered := by
  cases e <;> rfl

theorem map_lowered_lowered (outcome : Except Trap Effect) :
    (outcome.map Effect.lowered).map Effect.lowered = outcome.map Effect.lowered := by
  cases outcome with
  | error t => rfl
  | ok e => exact congrArg Except.ok e.lowered_lowered

/-- Each mode has the effects of the interpreter, up to what lowering changes. -/
theorem Mode.map_lowered (hmode : Mode s effectAt) (hverify : s.verify = .ok ())
    (hfit : act.Fits s) :
    (effectAt act).map (·.map Effect.lowered) =
      (interpretAt s act).map (·.map Effect.lowered) := by
  cases hmode with
  | interpreted => rfl
  | compiled hlower =>
    rw [executeAt_eq hverify hlower hfit, Option.map_map]
    cases interpretAt s act with
    | none => rfl
    | some outcome => exact congrArg some (map_lowered_lowered outcome)

/-- An effect of a script whose calls have distinct targets. -/
theorem Mode.distinctResults (hmode : Mode s effectAt) (hverify : s.verify = .ok ())
    (hdistinct : s.DistinctResults) (hfit : act.Fits s) {e : Effect}
    (he : effectAt act = some (.ok e)) : e.DistinctResults := by
  obtain ⟨op, i, _, hsound⟩ := hmode.sound hverify hfit he
  cases e with
  | call callee first count targets cells => exact hdistinct hsound.2.2.1
  | _ => trivial

/-- What two modes make of one instruction: both are at the end of the code, both abort or stop
alike, or both carry out effects that differ at most in telling a backward jump. -/
theorem Mode.same {effectAt' : Activation → Option (Except Trap Effect)}
    (hmode : Mode s effectAt) (hmode' : Mode s effectAt') (hverify : s.verify = .ok ())
    (hdistinct : s.DistinctResults) (hfit : act.Fits s) :
    (effectAt act = none ∧ effectAt' act = none) ∨
      (∃ t, effectAt act = some (.error t) ∧ effectAt' act = some (.error t)) ∨
      ∃ e e', effectAt act = some (.ok e) ∧ effectAt' act = some (.ok e') ∧
        (act.perform e).map Step.lowered = (act.perform e').map Step.lowered := by
  have heq := (hmode.map_lowered hverify hfit).trans (hmode'.map_lowered hverify hfit).symm
  cases hfirst : effectAt act with
  | none =>
    rw [hfirst, Option.map_none, eq_comm, Option.map_eq_none_iff] at heq
    exact .inl ⟨rfl, heq⟩
  | some outcome =>
    rw [hfirst, Option.map_some, eq_comm, Option.map_eq_some_iff] at heq
    obtain ⟨outcome', hsecond, heq⟩ := heq
    right
    cases outcome with
    | error t =>
      cases outcome' with
      | error t' =>
        cases heq
        exact .inl ⟨t, rfl, hsecond⟩
      | ok e' => cases heq
    | ok e =>
      cases outcome' with
      | error t' => cases heq
      | ok e' =>
        have hlowered : e'.lowered = e.lowered := Except.ok.inj heq
        refine .inr ⟨e, e', rfl, hsecond, ?_⟩
        rw [← perform_lowered (hmode.distinctResults hverify hdistinct hfit hfirst),
          ← perform_lowered (hmode'.distinctResults hverify hdistinct hfit hsecond), hlowered]

end Mode

/-! ## States that look the same -/

variable {σ τ : Type}

/-- How often each function was called. -/
def Ambient.calls (amb : Ambient σ) : Array UInt32 := amb.counters.map (·.calls)

/-- Two ambient states look the same: they have the same frames, native calls and counts of calls.
They may differ in counts of backward jumps and in what the dispatchers remember. -/
structure Ambient.SameView (a : Ambient σ) (b : Ambient τ) : Prop where
  frames : a.frames = b.frames
  log : a.log = b.log
  calls : a.calls = b.calls

/-- Two results look the same: how the invocation ended, what is in the slots and in memory, and the
state around it. -/
structure Result.SameView (r : Result σ) (r' : Result τ) : Prop where
  outcome : r.outcome = r'.outcome
  slots : r.slots = r'.slots
  memory : r.memory = r'.memory
  ambient : r.ambient.SameView r'.ambient

theorem Ambient.calls_countLoop (amb : Ambient σ) (id : FunctionId) :
    (amb.countLoop id).calls = amb.calls := by
  apply Array.ext_getElem?
  intro k
  simp only [calls, countLoop, Array.getElem?_map, Array.getElem?_modify]
  split
  · rw [Option.map_map]
    rfl
  · rfl

theorem Ambient.calls_countCall (amb : Ambient σ) (id : FunctionId) :
    (amb.countCall id).calls = amb.calls.modify id (· + 1) := by
  apply Array.ext_getElem?
  intro k
  simp only [calls, countCall, Array.getElem?_map, Array.getElem?_modify]
  split
  · rw [Option.map_map, Option.map_map]
    rfl
  · rfl

section Agree

variable (I : σ → Prop) (J : τ → Prop)

/-- Two ambient states look the same, and the dispatchers are in order. -/
structure Ambient.Agree (a : Ambient σ) (b : Ambient τ) : Prop extends a.SameView b where
  left : I a.tier
  right : J b.tier

/-- Two results look the same, and the dispatchers are in order. -/
structure Result.Agree (r : Result σ) (r' : Result τ) : Prop extends r.SameView r' where
  left : I r.ambient.tier
  right : J r'.ambient.tier

end Agree

section Simulation

variable {p : Program} {d : Dispatcher σ} {d' : Dispatcher τ} {I : σ → Prop} {J : τ → Prop}
  {a : Ambient σ} {b : Ambient τ}

theorem Result.Agree.ambient_agree {r : Result σ} {r' : Result τ} (h : r.Agree I J r') :
    r.ambient.Agree I J r'.ambient :=
  ⟨h.ambient, h.left, h.right⟩

namespace Ambient.Agree

variable (h : a.Agree I J b)

include h

/-- Results in states that agree. -/
theorem result (outcome : Outcome) (slots : ReturnSlots) (memory : Memory) :
    Result.Agree I J ⟨outcome, slots, memory, a⟩ ⟨outcome, slots, memory, b⟩ :=
  ⟨⟨rfl, rfl, rfl, h.toSameView⟩, h.left, h.right⟩

theorem withFrames (frames : FrameStack) :
    Ambient.Agree I J { a with frames } { b with frames } :=
  ⟨⟨rfl, h.log, h.calls⟩, h.left, h.right⟩

/-- It makes no difference which backward jumps are counted. -/
theorem countLoop (self : FunctionId) (backward backward' : Bool) :
    Ambient.Agree I J (if backward then a.countLoop self else a)
      (if backward' then b.countLoop self else b) := by
  have hleft : ∀ {a : Ambient σ}, a.Agree I J b → (a.countLoop self).Agree I J b := by
    intro a h
    exact ⟨⟨h.frames, h.log, (a.calls_countLoop self).trans h.calls⟩, h.left, h.right⟩
  have hright : ∀ {a : Ambient σ}, a.Agree I J b → a.Agree I J (b.countLoop self) := by
    intro a h
    exact ⟨⟨h.frames, h.log, h.calls.trans (b.calls_countLoop self).symm⟩, h.left, h.right⟩
  cases backward with
  | true =>
    cases backward' with
    | true => exact hright (hleft h)
    | false => exact hleft h
  | false =>
    cases backward' with
    | true => exact hright h
    | false => exact h

/-- Counting a call and choosing how it runs. -/
theorem dispatch (hd : d.Policy p I) (hd' : d'.Policy p J) {id : FunctionId} {s : LoadedScript}
    (hscript : p.functions[id]? = some (.script s)) :
    (d.dispatch id s.script a).2.Agree I J (d'.dispatch id s.script b).2 := by
  refine ⟨⟨h.frames, h.log, ?_⟩, hd.choose h.left hscript, hd'.choose h.right hscript⟩
  show (a.countCall id).calls = (b.countCall id).calls
  rw [a.calls_countCall, b.calls_countCall, h.calls]

theorem outgoing (hd : d.Policy p I) (hd' : d'.Policy p J) (via : Option Nat) :
    (d.outgoing via a).Agree I J (d'.outgoing via b) := by
  cases via with
  | none => exact h
  | some e => exact ⟨⟨h.frames, h.log, h.calls⟩, hd.install h.left, hd'.install h.right⟩

theorem returning (hd : d.Policy p I) (hd' : d'.Policy p J) (via : Option Nat)
    {a' : Ambient σ} {b' : Ambient τ} (h' : a'.Agree I J b') :
    (d.returning via a a').Agree I J (d'.returning via b b') := by
  cases via with
  | none => exact h'
  | some e =>
    exact ⟨⟨h'.frames, h'.log, h'.calls⟩, hd.restore h.left h'.left, hd'.restore h.right h'.right⟩

end Ambient.Agree

/-! ## Activations -/

/-- How two runs compare of which the second has at least the fuel of the first. -/
inductive Matches (I : σ → Prop) (J : τ → Prop) :
    Except Stop (Result σ) → Except Stop (Result τ) → Prop where
  | exhausted {right : Except Stop (Result τ)} : Matches I J (.error .outOfFuel) right
  | stops (s : Stop) : Matches I J (.error s) (.error s)
  | ends {r : Result σ} {r' : Result τ} (h : r.Agree I J r') : Matches I J (.ok r) (.ok r')

/-- How two instructions compare of which the second has at least the fuel of the first. -/
inductive TurnMatches (I : σ → Prop) (J : τ → Prop) : Turn σ → Turn τ → Prop where
  | exhausted {right : Turn τ} : TurnMatches I J (.stuck .outOfFuel) right
  | stuck (s : Stop) : TurnMatches I J (.stuck s) (.stuck s)
  | done {r : Result σ} {r' : Result τ} (h : r.Agree I J r') : TurnMatches I J (.done r) (.done r')
  | on (act : Activation) {a : Ambient σ} {b : Ambient τ} (h : a.Agree I J b) :
      TurnMatches I J (.on act a) (.on act b)

/-- Calls that are made in states that agree match. -/
def CallsMatch (I : σ → Prop) (J : τ → Prop) (call : Invoke σ) (call' : Invoke τ) : Prop :=
  ∀ id args slots memory {a : Ambient σ} {b : Ambient τ}, a.Agree I J b →
    Matches I J (call id args slots memory a) (call' id args slots memory b)

section Activation

variable {call : Invoke σ} {call' : Invoke τ} (hcalls : CallsMatch I J call call')
  {s : Script} {effectAt effectAt' : Activation → Option (Except Trap Effect)}
  (hmode : Mode s effectAt) (hmode' : Mode s effectAt') (hverify : s.verify = .ok ())
  (hdistinct : s.DistinctResults) (functions : Nat) (self : FunctionId)

include hcalls hmode hmode' hverify hdistinct

omit hmode hmode' hverify hdistinct in
/-- The same step taken by both runs. -/
theorem follow_matches {step step' : Step} (hstep : step.lowered = step'.lowered)
    (h : a.Agree I J b) :
    TurnMatches I J (follow functions call self a step) (follow functions call' self b step') := by
  cases step with
  | leave act count =>
    cases step' <;> cases hstep
    exact .done (h.result _ _ _)
  | next act backward =>
    cases step' <;> cases hstep
    exact .on act (h.countLoop self _ _)
  | call act callee args slots targets =>
    cases step' <;> cases hstep
    simp only [follow]
    cases functionAt? functions callee with
    | none => exact .stuck .badAccess
    | some id =>
      simp only
      have hmatch := hcalls id args slots act.memory h
      generalize call id args slots act.memory a = run at hmatch
      generalize call' id args slots act.memory b = run' at hmatch
      cases hmatch with
      | exhausted => exact .exhausted
      | stops s => exact .stuck s
      | @ends r r' hr =>
        simp only [← hr.outcome, ← hr.slots, ← hr.memory]
        cases r.outcome with
        | aborted x => exact .done (hr.ambient_agree.result _ _ _)
        | finished count => exact .on _ hr.ambient_agree

/-- One instruction in two modes. -/
theorem turn_matches {act : Activation} (hfit : act.Fits s) (h : a.Agree I J b) :
    TurnMatches I J (turn functions call self effectAt act a)
      (turn functions call' self effectAt' act b) := by
  rw [turn, turn]
  obtain ⟨hend, hend'⟩ | ⟨t, htrap, htrap'⟩ | ⟨e, e', heffect, heffect', hperform⟩ :=
    hmode.same hmode' hverify hdistinct hfit
  · rw [hend, hend']
    exact .done (h.result _ _ _)
  · rw [htrap, htrap']
    cases t with
    | stop s => exact .stuck s
    | abort a => exact .done (h.result _ _ _)
  · simp only [heffect, heffect']
    generalize act.perform e = performed at hperform
    generalize act.perform e' = performed' at hperform
    cases performed with
    | error s =>
      cases performed' with
      | error s' =>
        cases hperform
        exact .stuck s
      | ok step' => cases hperform
    | ok step =>
      cases performed' with
      | error s' => cases hperform
      | ok step' => exact follow_matches hcalls functions self (Except.ok.inj hperform) h

/-- Runs of instructions in two modes, by induction on the smaller fuel: as long as both go on, both
stand at the same activation. -/
theorem runActivation_matches {fuel fuel' : Nat} (hle : fuel ≤ fuel') {act : Activation}
    (hfit : act.Fits s) (h : a.Agree I J b) :
    Matches I J (runActivation functions call self effectAt fuel act a)
      (runActivation functions call' self effectAt' fuel' act b) := by
  induction fuel generalizing fuel' act a b with
  | zero => exact .exhausted
  | succ fuel ih =>
    obtain ⟨fuel', rfl⟩ : ∃ n, fuel' = n + 1 := ⟨fuel' - 1, by omega⟩
    rw [runActivation_succ, runActivation_succ]
    have hfits : ∀ {act' a'}, turn functions call self effectAt act a = .on act' a' →
        act'.Fits s := by
      intro act' a' hturn
      obtain ⟨act'', a'', hturn', hmove⟩ | ⟨r, hturn', _⟩ | ⟨s, hturn'⟩ :=
        turn_cases functions call self effectAt act a
      · rw [hturn] at hturn'
        cases hturn'
        exact fits_of_moves hmode hverify hfit hmove
      · rw [hturn] at hturn'
        cases hturn'
      · rw [hturn] at hturn'
        cases hturn'
    have hmatch := turn_matches hcalls hmode hmode' hverify hdistinct functions self hfit h
    generalize turn functions call self effectAt act a = left at hmatch hfits
    generalize turn functions call' self effectAt' act b = right at hmatch
    cases hmatch with
    | exhausted => exact .exhausted
    | stuck s => exact .stops s
    | done hr => exact .ends hr
    | on act' h' => exact ih (by omega) (hfits rfl) h'

omit hcalls hmode hmode' hverify hdistinct in
/-- Both runs pop the same frame. -/
theorem Result.Agree.leaveFrame {r : Result σ} {r' : Result τ} (h : r.Agree I J r') :
    (leaveFrame r).Agree I J (leaveFrame r') := by
  rw [TierVm.leaveFrame, TierVm.leaveFrame, ← h.ambient.frames]
  cases r.ambient.frames.pop with
  | ok frames =>
    exact ⟨⟨h.outcome, h.slots, h.memory, rfl, h.ambient.log, h.ambient.calls⟩, h.left, h.right⟩
  | error e =>
    simp only [← h.outcome]
    cases r.outcome with
    | aborted x => exact h
    | finished count => exact ⟨⟨rfl, h.slots, h.memory, h.ambient⟩, h.left, h.right⟩

omit hcalls hmode hmode' hverify hdistinct in
theorem Matches.leaveFrame {run : Except Stop (Result σ)} {run' : Except Stop (Result τ)}
    (h : Matches I J run run') :
    Matches I J (run.map TierVm.leaveFrame) (run'.map TierVm.leaveFrame) := by
  cases h with
  | exhausted => exact .exhausted
  | stops s => exact .stops s
  | ends hr => exact .ends hr.leaveFrame

/-- A script in a new frame, in two modes. -/
theorem activate_matches {fuel fuel' : Nat} (hle : fuel ≤ fuel') (args : List Argument)
    (slots : ReturnSlots) (memory : Memory) (h : a.Agree I J b) :
    Matches I J (activate functions call self s effectAt fuel args slots memory a)
      (activate functions call' self s effectAt' fuel' args slots memory b) := by
  rw [activate, activate, ← h.frames]
  cases hpush : a.frames.push s (args.map (·.value)) with
  | mk pushed frames =>
    cases pushed with
    | error e => exact .ends ((h.withFrames frames).result _ _ _)
    | ok frame =>
      exact (runActivation_matches hcalls hmode hmode' hverify hdistinct functions self hle
        (fits_start hverify hpush slots memory) (h.withFrames frames)).leaveFrame

end Activation

/-! ## Native functions -/

/-- The steps of a native function under two policies, by induction on what it has left to do. -/
theorem runHost_matches (hd : d.Policy p I) (hd' : d'.Policy p J) {call : Invoke σ}
    {call' : Invoke τ} (hcalls : CallsMatch I J call call') (args : List Argument)
    (program : HostProgram) (slots : ReturnSlots) (memory : Memory) (h : a.Agree I J b) :
    Matches I J (runHost d call args program slots memory a)
      (runHost d' call' args program slots memory b) := by
  induction program generalizing slots memory a b with
  | finish count => exact .ends (h.result _ _ _)
  | fail e => exact .ends (h.result _ _ _)
  | write slot v next ih =>
    rw [runHost, runHost]
    cases slots.write slot v with
    | ok slots' => exact ih slots' memory h
    | error cls => exact .ends (h.result _ _ _)
  | locate target next ih => exact ih _ slots memory h
  | load address count next ih =>
    rw [runHost, runHost]
    cases memory.read? address count with
    | some bytes => exact ih bytes slots memory h
    | none => exact .stops .badAccess
  | store address bytes next ih =>
    rw [runHost, runHost]
    cases memory.write? address bytes with
    | some memory' => exact ih slots memory' h
    | none => exact .stops .badAccess
  | alloc size next ih =>
    rw [runHost, runHost]
    cases memory.alloc size with
    | ok result => exact ih _ slots result.2 h
    | error trap =>
      cases trap with
      | abort x => exact ih _ slots memory h
      | stop s => exact .stops s
  | call via callee passed classes next ih =>
    rw [runHost, runHost]
    cases passedValues args slots passed with
    | none => exact .stops .badIndex
    | some values =>
      simp only
      have hmatch := hcalls callee (values.map ({ value := · })) (.fresh classes) memory
        (h.outgoing hd hd' via)
      generalize call callee _ _ memory (d.outgoing via a) = run at hmatch
      generalize call' callee _ _ memory (d'.outgoing via b) = run' at hmatch
      cases hmatch with
      | exhausted => exact .exhausted
      | stops s => exact .stops s
      | @ends r r' hr =>
        have hreport : callReport r = callReport r' := by
          rw [callReport, callReport, hr.outcome, hr.slots]
        simp only [← hreport, ← hr.memory]
        exact ih _ slots r.memory (h.returning hd hd' via hr.ambient_agree)

/-! ## Invocations -/

/-- What an invocation of a script comes to under a policy: a script that fails verification is
refused, and any other one runs in one of the two modes. -/
theorem invoke_script (hd : d.Policy p I) (hI : I a.tier) {id : FunctionId} {s : LoadedScript}
    (hscript : p.functions[id]? = some (.script s)) (fuel : Nat) (args : List Argument)
    (slots : ReturnSlots) (memory : Memory) :
    (∃ defect, s.script.verify = .error defect ∧
        invoke p d (fuel + 1) id args slots memory a =
          .ok (refusal (.verify defect) slots memory (d.dispatch id s.script a).2)) ∨
      s.script.verify = .ok () ∧ ∃ effectAt, Mode s.script effectAt ∧
        invoke p d (fuel + 1) id args slots memory a =
          activate p.size (invoke p d fuel) id s.script effectAt fuel args slots memory
            (d.dispatch id s.script a).2 := by
  simp only [invoke, hscript]
  cases hchoice : d.dispatch id s.script a with
  | mk code amb =>
    cases code with
    | some code =>
      obtain ⟨hverify, hlower⟩ := hd.lowered hI hscript (congrArg Prod.fst hchoice)
      exact .inr ⟨hverify, executeAt code.ops, .compiled hlower, rfl⟩
    | none =>
      simp only [interpret, s.verdict_eq]
      cases hverify : s.script.verify with
      | error defect => exact .inl ⟨defect, rfl, rfl⟩
      | ok u => exact .inr ⟨rfl, interpretAt s.script, .interpreted, rfl⟩

/-- Invocations under two policies match, by induction on the smaller fuel, which bounds how deep
calls are nested. -/
theorem invoke_matches (hd : d.Policy p I) (hd' : d'.Policy p J) (hdistinct : p.DistinctResults)
    {fuel fuel' : Nat} (hle : fuel ≤ fuel') :
    CallsMatch I J (invoke p d fuel) (invoke p d' fuel') := by
  induction fuel generalizing fuel' with
  | zero =>
    intro id args slots memory a b h
    exact .exhausted
  | succ fuel ih =>
    obtain ⟨fuel', rfl⟩ : ∃ n, fuel' = n + 1 := ⟨fuel' - 1, by omega⟩
    have hcalls : CallsMatch I J (invoke p d fuel) (invoke p d' fuel') := ih (by omega)
    intro id args slots memory a b h
    cases hfun : p.functions[id]? with
    | none =>
      simp only [invoke, hfun]
      exact .stops .badAccess
    | some f =>
      cases f with
      | native n =>
        simp only [invoke, hfun, h.log]
        exact runHost_matches hd hd' hcalls args _ slots memory
          ⟨⟨h.frames, rfl, h.calls⟩, h.left, h.right⟩
      | script s =>
        have hagree := h.dispatch hd hd' hfun
        obtain ⟨defect, hverify, hrun⟩ | ⟨hverify, effectAt, hmode, hrun⟩ :=
          invoke_script hd h.left hfun fuel args slots memory
        · obtain ⟨defect', hverify', hrun'⟩ | ⟨hverify', _⟩ :=
            invoke_script hd' h.right hfun fuel' args slots memory
          · rw [hverify] at hverify'
            cases hverify'
            rw [hrun, hrun']
            exact .ends (hagree.result _ _ _)
          · rw [hverify] at hverify'
            cases hverify'
        · obtain ⟨defect', hverify', _⟩ | ⟨_, effectAt', hmode', hrun'⟩ :=
            invoke_script hd' h.right hfun fuel' args slots memory
          · rw [hverify] at hverify'
            cases hverify'
          · rw [hrun, hrun']
            have hresults : s.script.DistinctResults :=
              hdistinct _ (Array.mem_of_getElem? hfun) hverify
            exact activate_matches hcalls hmode hmode' hverify hresults p.size id (by omega) args
              slots memory hagree

end Simulation

/-! ## Runs that look the same -/

theorem Ambient.SameView.symm {a : Ambient σ} {b : Ambient τ} (h : a.SameView b) :
    b.SameView a :=
  ⟨h.frames.symm, h.log.symm, h.calls.symm⟩

theorem Result.SameView.symm {r : Result σ} {r' : Result τ} (h : r.SameView r') : r'.SameView r :=
  ⟨h.outcome.symm, h.slots.symm, h.memory.symm, h.ambient.symm⟩

/-- Two runs have ended alike: both have stopped for one reason, or their results look the same. -/
inductive SameEnd : Except Stop (Result σ) → Except Stop (Result τ) → Prop where
  | stop (s : Stop) : SameEnd (.error s) (.error s)
  | result {r : Result σ} {r' : Result τ} (h : r.SameView r') : SameEnd (.ok r) (.ok r')

theorem SameEnd.symm {left : Except Stop (Result σ)} {right : Except Stop (Result τ)}
    (h : SameEnd left right) : SameEnd right left := by
  cases h with
  | stop s => exact .stop s
  | result h => exact .result h.symm

/-- Two runs come to the same, each given as what it comes to with any amount of fuel. -/
structure SameRuns (run : Nat → Except Stop (Result σ)) (run' : Nat → Except Stop (Result τ)) :
    Prop where
  /-- No fuel is enough for either run, or there is enough for both. -/
  ends : (∀ n, run n = .error .outOfFuel ∧ run' n = .error .outOfFuel) ∨
    ∃ m, ∀ n, m ≤ n → run n ≠ .error .outOfFuel ∧ run' n ≠ .error .outOfFuel
  /-- Runs that had enough fuel have ended alike. -/
  same : ∀ {n n'}, run n ≠ .error .outOfFuel → run' n' ≠ .error .outOfFuel →
    SameEnd (run n) (run' n')

section SameRuns

variable {I : σ → Prop} {J : τ → Prop}

theorem Matches.exhausted_left {left : Except Stop (Result σ)}
    (h : Matches I J left (.error .outOfFuel)) : left = .error .outOfFuel := by
  cases h with
  | exhausted => rfl
  | stops s => rfl

theorem Matches.sameEnd {left : Except Stop (Result σ)} {right : Except Stop (Result τ)}
    (h : Matches I J left right) (hleft : left ≠ .error .outOfFuel) : SameEnd left right := by
  cases h with
  | exhausted => exact absurd rfl hleft
  | stops s => exact .stop s
  | ends hr => exact .result hr.toSameView

variable {run : Nat → Except Stop (Result σ)} {run' : Nat → Except Stop (Result τ)}

/-- Results of runs that come to the same look the same. -/
theorem SameRuns.sameView (h : SameRuns run run') {n n' : Nat} {r : Result σ} {r' : Result τ}
    (hr : run n = .ok r) (hr' : run' n' = .ok r') : r.SameView r' := by
  have hend : SameEnd (run n) (run' n') := by
    apply h.same
    · rw [hr]
      exact nofun
    · rw [hr']
      exact nofun
  rw [hr, hr'] at hend
  cases hend with
  | result hview => exact hview

/-- Runs that match in both directions come to the same. -/
theorem sameRuns_of_matches (hleft : ∀ {n n'}, n ≤ n' → Matches I J (run n) (run' n'))
    (hright : ∀ {n n'}, n ≤ n' → Matches J I (run' n) (run n')) : SameRuns run run' := by
  -- A run that has ended lets the other one end with the same fuel.
  have hends : ∀ {n n'}, n ≤ n' → run n ≠ .error .outOfFuel → run' n' ≠ .error .outOfFuel := by
    intro n n' hle hrun hrun'
    have hmatch := hleft hle
    rw [hrun'] at hmatch
    exact hrun hmatch.exhausted_left
  have hends' : ∀ {n n'}, n ≤ n' → run' n ≠ .error .outOfFuel → run n' ≠ .error .outOfFuel := by
    intro n n' hle hrun hrun'
    have hmatch := hright hle
    rw [hrun'] at hmatch
    exact hrun hmatch.exhausted_left
  refine ⟨?_, ?_⟩
  · by_cases hdiverge : ∀ n, run n = .error .outOfFuel
    · left
      intro n
      refine ⟨hdiverge n, ?_⟩
      by_contra hrun'
      exact hends' (Nat.le_refl n) hrun' (hdiverge n)
    · right
      obtain ⟨m, hm⟩ := not_forall.1 hdiverge
      refine ⟨m, ?_⟩
      intro n hn
      exact ⟨hends' hn (hends (Nat.le_refl m) hm), hends hn hm⟩
  · intro n n' hrun hrun'
    rcases Nat.le_total n n' with hle | hle
    · exact (hleft hle).sameEnd hrun
    · exact ((hright hle).sameEnd hrun').symm

end SameRuns

/-! ## Records that look the same -/

/-- Two runs leave the same of a record, up to a payload that it held before. -/
structure SameRecords (before left right : ExceptionRecord) : Prop where
  reason : left.reason = right.reason
  arg : left.arg = right.arg
  place : left.place = right.place
  payload : before.payload = none → left.payload = right.payload

/-- Whatever one outcome may leave of a record is the same, up to a payload from before. -/
theorem Outcome.Leaves.same {outcome : Outcome} {before left right : ExceptionRecord}
    (h : outcome.Leaves before left) (h' : outcome.Leaves before right) :
    SameRecords before left right := by
  have hpayload : before.payload = none → left.payload = right.payload := by
    intro hnone
    rw [h.eq_of_payload hnone, h'.eq_of_payload hnone]
  cases h with
  | kept count =>
    cases h' with
    | kept => exact ⟨rfl, rfl, rfl, hpayload⟩
  | raised x =>
    cases h' with
    | raised => exact ⟨rfl, rfl, rfl, hpayload⟩
    | stored => exact ⟨rfl, rfl, rfl, hpayload⟩
  | stored hx =>
    cases h' with
    | raised => exact ⟨rfl, rfl, rfl, hpayload⟩
    | stored => exact ⟨rfl, rfl, rfl, hpayload⟩

/-! ## The result -/

/-- The targets of a call of a verified script are registers. -/
theorem Script.CallsAt.lt {s : Script} (hverify : s.verify = .ok ()) {pc : Nat}
    {targets : List Target} (h : s.CallsAt pc targets) :
    ∀ t ∈ targets, t.index < s.regs.of t.cls := by
  have hs := Script.accepted_of_verify hverify
  obtain ⟨i, op, hi, hop, hcall, rfl⟩ := h
  obtain ⟨op', hop', _, hafter⟩ := hs.instr hi
  rw [hop] at hop'
  cases hop'
  exact hs.targetsAt_lt (Script.pendingAfter_call hcall hafter).2.2.1

/-- If no call of a verified script names a register twice for its results, strings apart, then all
policies lead to the same: from states that look the same, an invocation diverges under both
policies, or under both it ends with the same outcome, slots, memory, frames, native calls and
counts of calls.  The record of the caller, in which nothing is raised at first, then holds the same
reason, argument and place, and also the same payload if it had none before.  Engines are a policy,
whatever they have done before.  And if a call does name a register twice, it loses a result when
the caller is compiled. -/
theorem mode_independence (p : Program) :
    (p.DistinctResults → ∀ {σ τ : Type} {d : Dispatcher σ} {d' : Dispatcher τ} {I : σ → Prop}
        {J : τ → Prop}, d.Policy p I → d'.Policy p J →
      ∀ {a : Ambient σ} {b : Ambient τ}, I a.tier → J b.tier → a.SameView b →
      ∀ (id : FunctionId) (args : List Argument) (slots : ReturnSlots) (memory : Memory),
        SameRuns (fun fuel => invoke p d fuel id args slots memory a)
          (fun fuel => invoke p d' fuel id args slots memory b) ∧
        ∀ {record : ExceptionRecord}, record.isRaised = false →
          ∀ {n n' : Nat} {r : Result σ} {r' : Result τ} {left right : ExceptionRecord},
            invokeInto p d n id args slots memory a record = .ok (r, left) →
            invokeInto p d' n' id args slots memory b record = .ok (r', right) →
            r.outcome.Leaves record left ∧ r'.outcome.Leaves record right ∧
              SameRecords record left right) ∧
    (∀ {t : Tier}, Tier.History p t → Tier.dispatcher.Policy p (Tier.Compiled p) ∧ t.Compiled p) ∧
    (¬ p.DistinctResults → ∃ (id : FunctionId) (s : LoadedScript) (pc : Nat)
        (targets : List Target), p.functions[id]? = some (.script s) ∧ s.script.verify = .ok () ∧
      s.script.CallsAt pc targets ∧
      ∀ act : Activation, act.Fits s.script → act.LosesResult targets) := by
  refine ⟨?_, ?_, ?_⟩
  · intro hdistinct σ τ d d' I J hd hd' a b hI hJ hview id args slots memory
    have hruns : SameRuns (fun fuel => invoke p d fuel id args slots memory a)
        (fun fuel => invoke p d' fuel id args slots memory b) := by
      apply sameRuns_of_matches (I := I) (J := J)
      · intro n n' hle
        exact invoke_matches hd hd' hdistinct hle id args slots memory ⟨hview, hI, hJ⟩
      · intro n n' hle
        exact invoke_matches hd' hd hdistinct hle id args slots memory ⟨hview.symm, hJ, hI⟩
    refine ⟨hruns, ?_⟩
    intro record hrecord n n' r r' left right hleft hright
    have hleaves := invokeInto_leaves hrecord hleft
    have hleaves' := invokeInto_leaves hrecord hright
    have hview := hruns.sameView (invoke_of_invokeInto hleft) (invoke_of_invokeInto hright)
    refine ⟨hleaves, hleaves', ?_⟩
    rw [← hview.outcome] at hleaves'
    exact hleaves.same hleaves'
  · intro t h
    exact ⟨Tier.policy p, Tier.compiled_of_history h⟩
  · intro h
    simp only [Program.DistinctResults, not_forall] at h
    obtain ⟨f, hf, h⟩ := h
    obtain ⟨id, hid⟩ := Array.mem_iff_getElem?.1 hf
    cases f with
    | native n => exact absurd trivial h
    | script s =>
      simp only [Function.DistinctResults, Script.DistinctResults, not_forall] at h
      obtain ⟨hverify, pc, targets, hcalls, hduplicate⟩ := h
      refine ⟨id, s, pc, targets, hid, hverify, hcalls, ?_⟩
      intro act hfit
      apply losesResult_of_duplicate _ hduplicate
      intro t ht
      exact hfit.lt (hcalls.lt hverify t ht)

/-- A native function that writes the first of its results, and a script that calls it for results
in the given registers and returns the first register. -/
def asksFor (registers : List UInt8) : Program where
  functions := #[
    .native (Action.native "one" [.set 0 (.int 42)] 1),
    .script (Script.load {
      name := "asks"
      code := #[.make .callK 0 0 (UInt8.ofNat registers.length)] ++
        (registers.map (.make .result 0 0)).toArray ++ #[.make .ret 128 0 0]
      konst := { pointers := #[functionAddress 0] }
      regs := { int := 2 } })]

/-- The script is called for an integer. -/
def answer (d : Dispatcher Unit) (registers : List UInt8) (fuel : Nat) :
    Except Stop (Result Unit) :=
  invoke (asksFor registers) d fuel 1 [] (.fresh [.int]) {} { tier := () }

/-- A script that divides a register by itself, which is zero at first. -/
def divides : Program where
  functions := #[.script (Script.load {
    name := "divides"
    code := #[.make (.intOp .div .rr) 0 0 0]
    regs := { int := 1 } })]

/-- The script is called with a record. -/
def division (d : Dispatcher Unit) (record : ExceptionRecord) :
    Except Stop (Result Unit × ExceptionRecord) :=
  invokeInto divides d 2 0 [] (.fresh []) {} { tier := () } record

theorem eq_ok_of_toOption {ε α : Type} {m : Except ε α} {x : α} (h : m.toOption = some x) :
    m = .ok x := by
  cases m with
  | error e => cases h
  | ok y =>
    cases h
    rfl

theorem eq_ok_of_isSome {ε α : Type} {m : Except ε α} (h : m.toOption.isSome = true) :
    ∃ x, m = .ok x := by
  obtain ⟨x, hx⟩ := Option.isSome_iff_exists.1 h
  exact ⟨x, eq_ok_of_toOption hx⟩

/-- A script that asks for results in two registers is the same in both modes, and an engine runs
it by the rules.  So is a script that divides by zero, and it leaves the same in a record.  A script
that asks for two results in one register loses one. -/
theorem mode_independence_asksFor :
    (asksFor [0, 1]).DistinctResults ∧
      SameRuns (answer .interpreting [0, 1]) (answer .compiling [0, 1]) ∧
      (({} : Tier).addEngine {}).Compiled (asksFor [0, 1]) ∧
      divides.DistinctResults ∧
      (∃ r r' left right, division .interpreting { arg := 7 } = .ok (r, left) ∧
        division .compiling { arg := 7 } = .ok (r', right) ∧
        r.outcome.Leaves { arg := 7 } left ∧ r'.outcome.Leaves { arg := 7 } right ∧
        SameRecords { arg := 7 } left right) ∧
      ¬ (asksFor [0, 0]).DistinctResults ∧ ∃ (s : LoadedScript) (pc : Nat) (targets : List Target),
        s.script.CallsAt pc targets ∧
        ∀ act : Activation, act.Fits s.script → act.LosesResult targets := by
  have hdistinct : (asksFor [0, 1]).DistinctResults := by decide +kernel
  have hdivides : divides.DistinctResults := by decide +kernel
  have hduplicate : ¬ (asksFor [0, 0]).DistinctResults := by decide +kernel
  obtain ⟨_, s, pc, targets, _, _, hcalls, hloses⟩ := (mode_independence _).2.2 hduplicate
  refine ⟨hdistinct, ?_, ?_, hdivides, ?_, hduplicate, s, pc, targets, hcalls, hloses⟩
  · exact ((mode_independence _).1 hdistinct (Dispatcher.interpreting_policy _)
      (Dispatcher.compiling_policy _) trivial trivial ⟨rfl, rfl, rfl⟩ 1 [] _ _).1
  · exact ((mode_independence _).2.1 (.addEngine {} (.start #[]))).2
  · obtain ⟨⟨r, left⟩, hleft⟩ :=
      eq_ok_of_isSome (m := division .interpreting { arg := 7 }) (by decide +kernel)
    obtain ⟨⟨r', right⟩, hright⟩ :=
      eq_ok_of_isSome (m := division .compiling { arg := 7 }) (by decide +kernel)
    exact ⟨r, r', left, right, hleft, hright,
      ((mode_independence _).1 hdivides (Dispatcher.interpreting_policy _)
        (Dispatcher.compiling_policy _) trivial trivial ⟨rfl, rfl, rfl⟩ 0 [] _ _).2 rfl hleft
        hright⟩

/-- The integer in a slot. -/
def Result.int? (r : Result σ) (slot : Nat) : Option Int32 :=
  match r.slots.get? slot with
  | some (.int x) => some x
  | _ => none

/-- Runs that come to the same leave the same integer in a slot. -/
theorem SameRuns.int?_eq {run : Nat → Except Stop (Result σ)} {run' : Nat → Except Stop (Result τ)}
    (h : SameRuns run run') {n n' slot : Nat} {x y : Int32}
    (hx : (run n).toOption.bind (·.int? slot) = some x)
    (hy : (run' n').toOption.bind (·.int? slot) = some y) : x = y := by
  obtain ⟨r, hr, hx⟩ := Option.bind_eq_some_iff.1 hx
  obtain ⟨r', hr', hy⟩ := Option.bind_eq_some_iff.1 hy
  have hview := h.sameView (eq_ok_of_toOption hr) (eq_ok_of_toOption hr')
  rw [Result.int?, hview.slots, ← Result.int?, hy] at hx
  exact (Option.some.inj hx).symm

/-- A script that asks for two results in one register gets the one result that is written when it
is interpreted, and the old value of the register when it is compiled. -/
theorem modes_differ_on_duplicate_results :
    Dispatcher.interpreting.Policy (asksFor [0, 0]) (fun _ => True) ∧
      Dispatcher.compiling.Policy (asksFor [0, 0]) (fun _ => True) ∧
      ¬ SameRuns (answer .interpreting [0, 0]) (answer .compiling [0, 0]) := by
  refine ⟨Dispatcher.interpreting_policy _, Dispatcher.compiling_policy _, ?_⟩
  intro h
  have hinterpreted : (answer .interpreting [0, 0] 3).toOption.bind (·.int? 0) = some 42 := by
    decide +kernel
  have hcompiled : (answer .compiling [0, 0] 3).toOption.bind (·.int? 0) = some 0 := by
    decide +kernel
  exact absurd (h.int?_eq hinterpreted hcompiled) (by decide)

/-- A payload from before is gone when the interpreter has aborted a division by zero, and is still
there when compiled code has. -/
theorem modes_differ_on_old_payload :
    divides.DistinctResults ∧ ∃ record : ExceptionRecord, record.isRaised = false ∧
      record.payload ≠ none ∧
      (division .interpreting record).toOption.map (·.2.payload) = some none ∧
      (division .compiling record).toOption.map (·.2.payload) = some record.payload := by
  refine ⟨by decide +kernel, { payload := some (.native "old") }, rfl, Option.some_ne_none _, ?_, ?_⟩
  · decide +kernel
  · decide +kernel

end TierVm
