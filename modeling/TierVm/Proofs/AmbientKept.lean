import TierVm.Proofs.Engines
import TierVm.Proofs.Paths

/-!
# What an invocation leaves of the state around it

An invocation pushes a frame and pops it, and a native function that calls through an engine
installs that engine and puts the earlier one back.  Whatever happens in between, and however the
invocation ends, the frames are those from before.

* `Ambient.Kept` is the relation of the state around an invocation before and after it: the same
  frames, and a relation `R` between the states of the dispatcher.  `Dispatcher.Keeps` is what `R`
  has to satisfy.
* `moves_kept` and `hostMoves_kept` are the steps, `reaches_kept` and `hostReaches_kept` the runs,
  and `invoke_kept` is the induction over the nesting of calls.
* `FrameStack.Counted` says that the counter of a stack is right and within its limit, and
  `counted_of_visits` that this holds at every moment of a run.
* `ambient_restored` collects all ways into the machine.
-/

namespace TierVm

variable {σ : Type}

/-! ## The relation -/

/-- The frames are the same, and the states of the dispatcher are related. -/
def Ambient.Kept (R : σ → σ → Prop) (before after : Ambient σ) : Prop :=
  after.frames = before.frames ∧ R before.tier after.tier

/-- A relation between states of a dispatcher that choices respect, and that calls through another
engine respect as a whole. -/
structure Dispatcher.Keeps (d : Dispatcher σ) (p : Program) (R : σ → σ → Prop) : Prop where
  refl : ∀ t, R t t
  trans : ∀ {t₁ t₂ t₃}, R t₁ t₂ → R t₂ t₃ → R t₁ t₃
  choose : ∀ {id : FunctionId} {s : LoadedScript} (c : Counters) (t : σ),
    p.functions[id]? = some (.script s) → R t (d.choose id s.script c t).2
  excursion : ∀ {e : Nat} {t t' : σ}, R (d.install e t) t' → R t (d.restore t t')

/-- Every call that comes to a result keeps the state around it. -/
def CallKeeps (R : σ → σ → Prop) (call : Invoke σ) : Prop :=
  ∀ ⦃id args slots memory amb r⦄, call id args slots memory amb = .ok r → amb.Kept R r.ambient

section

variable {p : Program} {d : Dispatcher σ} {R : σ → σ → Prop} (hd : d.Keeps p R)

include hd

theorem Dispatcher.Keeps.kept_refl (amb : Ambient σ) : amb.Kept R amb := ⟨rfl, hd.refl _⟩

theorem Dispatcher.Keeps.kept_trans {amb₁ amb₂ amb₃ : Ambient σ} (h₁ : amb₁.Kept R amb₂)
    (h₂ : amb₂.Kept R amb₃) : amb₁.Kept R amb₃ :=
  ⟨h₂.1.trans h₁.1, hd.trans h₁.2 h₂.2⟩

/-- Counting a call and choosing how it runs leaves the frames. -/
theorem dispatch_kept {id : FunctionId} {s : LoadedScript} (amb : Ambient σ)
    (hscript : p.functions[id]? = some (.script s)) :
    amb.Kept R (d.dispatch id s.script amb).2 :=
  ⟨rfl, hd.choose _ _ hscript⟩

/-- A call that a native function makes, with the engine put back. -/
theorem returning_kept {via : Option Nat} {amb amb' : Ambient σ}
    (h : (d.outgoing via amb).Kept R amb') : amb.Kept R (d.returning via amb amb') := by
  cases via with
  | none => exact h
  | some e => exact ⟨h.1, hd.excursion h.2⟩

/-! ## Activations -/

variable {functions : Nat} {call : Invoke σ} {self : FunctionId}
  {effectAt : Activation → Option (Except Trap Effect)} (hcall : CallKeeps R call)

include hcall

/-- One instruction keeps the frames. -/
theorem moves_kept {before after : Activation × Ambient σ}
    (h : Moves functions call self effectAt before after) : before.2.Kept R after.2 := by
  cases h with
  | next heffect hperform =>
    split
    · exact ⟨rfl, hd.refl _⟩
    · exact hd.kept_refl _
  | call heffect hperform hcallee hrun hfinished => exact hcall hrun

/-- Any number of instructions keeps the frames. -/
theorem reaches_kept {first last : Activation × Ambient σ}
    (h : Reaches functions call self effectAt first last) : first.2.Kept R last.2 := by
  induction h with
  | refl => exact hd.kept_refl _
  | tail _ hmove ih => exact hd.kept_trans ih (moves_kept hd hcall hmove)

/-- The last instruction keeps the frames, also when a callee was aborted. -/
theorem ends_kept {last : Activation × Ambient σ} {r : Result σ}
    (h : Ends functions call self effectAt last r) : last.2.Kept R r.ambient := by
  cases h with
  | falls heffect => exact hd.kept_refl _
  | raises heffect => exact hd.kept_refl _
  | leaves heffect hperform => exact hd.kept_refl _
  | propagates heffect hperform hcallee hrun haborted =>
    have hkept := hcall hrun
    exact hkept

omit hd hcall in
/-- The frame that was pushed is the one that is popped. -/
theorem leaveFrame_of_link {amb : Ambient σ} {frame : Frame} {r : Result σ}
    (h : r.ambient.frames = amb.frames.link frame) :
    leaveFrame r = { r with ambient := { r.ambient with frames := amb.frames } } := by
  rw [leaveFrame, h]
  rfl

/-- An activation that was started in state `amb` and has ended: its frame is gone. -/
theorem activation_kept {amb : Ambient σ} {s : Script} {values : List Value} {frame : Frame}
    {frames : FrameStack} (hpush : amb.frames.push s values = (.ok frame, frames))
    {act : Activation} {last : Activation × Ambient σ} {r : Result σ}
    (hreach : Reaches functions call self effectAt (act, { amb with frames }) last)
    (hend : Ends functions call self effectAt last r) : amb.Kept R (leaveFrame r).ambient := by
  obtain ⟨_, _, rfl⟩ := FrameStack.push_ok hpush
  have hkept := hd.kept_trans (reaches_kept hd hcall hreach) (ends_kept hd hcall hend)
  rw [leaveFrame_of_link hkept.1]
  exact ⟨rfl, hkept.2⟩

/-- A script that was run in a new frame. -/
theorem activate_kept {s : Script} {fuel : Nat} {args : List Argument} {slots : ReturnSlots}
    {memory : Memory} {amb : Ambient σ} {r : Result σ}
    (h : activate functions call self s effectAt fuel args slots memory amb = .ok r) :
    amb.Kept R r.ambient := by
  obtain ⟨e, _, rfl⟩ | ⟨frame, frames, last, r', hpush, hreach, hend, rfl⟩ := activate_ok h
  · exact hd.kept_refl _
  · exact activation_kept hd hcall hpush hreach hend

/-! ## Native functions -/

variable {args : List Argument}

/-- One step of a native function keeps the frames. -/
theorem hostMoves_kept {before after : HostState σ} (h : HostMoves d call args before after) :
    before.ambient.Kept R after.ambient := by
  cases h with
  | write hwrite => exact hd.kept_refl _
  | locate => exact hd.kept_refl _
  | load hread => exact hd.kept_refl _
  | store hwrite => exact hd.kept_refl _
  | alloc halloc => exact hd.kept_refl _
  | refused halloc => exact hd.kept_refl _
  | call hpassed hrun => exact returning_kept hd (hcall hrun)

/-- Any number of steps of a native function keeps the frames. -/
theorem hostReaches_kept {first last : HostState σ} (h : HostReaches d call args first last) :
    first.ambient.Kept R last.ambient := by
  induction h with
  | refl => exact hd.kept_refl _
  | tail _ hmove ih => exact hd.kept_trans ih (hostMoves_kept hd hcall hmove)

omit hd hcall in
theorem hostEnds_ambient {last : HostState σ} {r : Result σ} (h : HostEnds last r) :
    r.ambient = last.ambient := by
  cases h <;> rfl

end

/-! ## Invocations -/

section

variable {p : Program} {d : Dispatcher σ} {R : σ → σ → Prop}

/-- The state in which the activation of an invocation starts: one frame more. -/
theorem starts_kept (hd : d.Keeps p R) {v : Invocation σ} {s : LoadedScript}
    {effectAt : Activation → Option (Except Trap Effect)} {first : Activation × Ambient σ}
    (h : Starts p d v s effectAt first) :
    ∃ amb frame frames, v.ambient.Kept R amb ∧
      amb.frames.push s.script v.values = (.ok frame, frames) ∧
      first = (.start frame v.slots v.memory, { amb with frames }) := by
  cases h with
  | interpreted hscript hchoice hverdict hpush =>
    have hkept := dispatch_kept hd v.ambient hscript
    rw [hchoice] at hkept
    exact ⟨_, _, _, hkept, hpush, rfl⟩
  | compiled hscript hchoice hpush =>
    have hkept := dispatch_kept hd v.ambient hscript
    rw [hchoice] at hkept
    exact ⟨_, _, _, hkept, hpush, rfl⟩

/-- An invocation keeps the state around it if the invocations that it makes do. -/
theorem run_kept (hd : d.Keeps p R) {v : Invocation σ} {r : Result σ}
    (hcalls : ∀ fuel, v.fuel = fuel + 1 → CallKeeps R (invoke p d fuel))
    (h : v.run p d = .ok r) : v.ambient.Kept R r.ambient := by
  obtain ⟨fuel, hfuel, hrun⟩ := Invocation.run_ok h
  have hcall := hcalls fuel hfuel
  obtain ⟨n, last, _, hreach, hend⟩ | ⟨s, e, hrefused, rfl⟩ |
    ⟨s, effectAt, first, last, r', hstart, hreach, hend, rfl⟩ := hrun
  · rw [hostEnds_ambient hend]
    exact hostReaches_kept hd hcall hreach
  · exact dispatch_kept hd v.ambient hrefused.script
  · obtain ⟨amb, frame, frames, hkept, hpush, rfl⟩ := starts_kept hd hstart
    exact hd.kept_trans hkept (activation_kept hd hcall hpush hreach hend)

/-- Every invocation keeps the state around it.  The induction is over the fuel, which bounds how
deep calls are nested. -/
theorem invoke_kept (hd : d.Keeps p R) (fuel : Nat) : CallKeeps R (invoke p d fuel) := by
  induction fuel with
  | zero =>
    intro id args slots memory amb r h
    cases h
  | succ fuel ih =>
    intro id args slots memory amb r h
    refine run_kept (v := ⟨fuel + 1, id, args, slots, memory, amb⟩) hd ?_ h
    intro fuel' hfuel
    cases hfuel
    exact ih

end

/-! ## The counter of frames -/

/-- The counter of a stack is the number of its frames, and within the limit. -/
def FrameStack.Counted (st : FrameStack) : Prop :=
  st.depth = st.frames.length ∧ st.depth ≤ maxFrameDepth

namespace FrameStack

theorem counted_empty : ({} : FrameStack).Counted := ⟨rfl, Nat.zero_le _⟩

/-- A frame is linked only where there is room for it. -/
theorem Counted.link {st : FrameStack} (h : st.Counted) (hroom : st.depth < maxFrameDepth)
    (frame : Frame) : (st.link frame).Counted := by
  refine ⟨?_, hroom⟩
  show st.depth + 1 = st.frames.length + 1
  rw [h.1]

theorem Counted.push {st st' : FrameStack} (h : st.Counted) {s : Script} {args : List Value}
    {pushed : Except VmError Frame} (hpush : st.push s args = (pushed, st')) : st'.Counted := by
  cases pushed with
  | error e =>
    rw [push_error hpush]
    exact h
  | ok frame =>
    obtain ⟨hroom, _, rfl⟩ := push_ok hpush
    exact h.link hroom frame

theorem Counted.pop {st st' : FrameStack} (h : st.Counted) (hpop : st.pop = .ok st') :
    st'.Counted := by
  obtain ⟨frames, depth⟩ := st
  obtain ⟨hdepth, hle⟩ := h
  cases frames with
  | nil => cases hpop
  | cons frame rest =>
    cases hpop
    simp only [List.length_cons] at hdepth hle
    refine ⟨?_, ?_⟩
    · show depth - 1 = rest.length
      omega
    · show depth - 1 ≤ maxFrameDepth
      omega

end FrameStack

section

variable {p : Program} {d : Dispatcher σ} {R : σ → σ → Prop}

/-- The states that an invocation passes through have its caller's frames, and one more while a
script runs. -/
theorem frames_of_visits (hd : d.Keeps p R) {v : Invocation σ} {amb : Ambient σ}
    (h : Visits p d v amb) :
    amb.frames = v.ambient.frames ∨ ∃ s values frame,
      v.ambient.frames.push s values = (.ok frame, amb.frames) := by
  cases h with
  | enters => exact .inl rfl
  | script hfuel hstart hreach =>
    obtain ⟨before, frame, frames, hkept, hpush, rfl⟩ := starts_kept hd hstart
    have hframes := (reaches_kept hd (invoke_kept hd _) hreach).1
    rw [hkept.1] at hpush
    refine .inr ⟨_, _, frame, hpush.trans ?_⟩
    rw [hframes]
  | native hfuel hnative hreach =>
    exact .inl (hostReaches_kept hd (invoke_kept hd _) hreach).1

/-- The counter is right at every moment of an invocation. -/
theorem counted_of_visits (hd : d.Keeps p R) {v : Invocation σ} {amb : Ambient σ}
    (h : Visits p d v amb) (hcounted : v.ambient.frames.Counted) : amb.frames.Counted := by
  obtain heq | ⟨s, values, frame, hpush⟩ := frames_of_visits hd h
  · rw [heq]
    exact hcounted
  · exact hcounted.push hpush

/-- An invocation made by another one starts out with a right counter. -/
theorem counted_of_makes (hd : d.Keeps p R) {v w : Invocation σ} (h : Makes p d v w)
    (hcounted : v.ambient.frames.Counted) : w.ambient.frames.Counted := by
  cases h with
  | script hfuel hstart hreach heffect hperform hcallee =>
    exact counted_of_visits hd (.script hfuel hstart hreach) hcounted
  | native hfuel hnative hreach hpassed =>
    have := counted_of_visits hd (.native hfuel hnative hreach) hcounted
    rename_i via _ _ _ _ _ _ _ _
    cases via <;> exact this

/-- The counter is right at the start of all invocations of a run. -/
theorem counted_of_within (hd : d.Keeps p R) {v w : Invocation σ} (h : Within p d v w)
    (hcounted : v.ambient.frames.Counted) : w.ambient.frames.Counted := by
  induction h with
  | refl => exact hcounted
  | tail _ hmakes ih => exact counted_of_makes hd hmakes ih

end

/-! ## All ways into the machine -/

/-- Engines evolve along every run: the one that was installed is installed again. -/
theorem Tier.dispatcher_keeps (p : Program) : Tier.dispatcher.Keeps p (Tier.Evolves p) where
  refl := Tier.Evolves.refl
  trans := Tier.Evolves.trans
  choose c t hscript := (Tier.evolves_choose hscript c t).1
  excursion h := ⟨rfl, h.compiled⟩

/-- The ways into the machine: a function object is called, a script is interpreted, code that was
compiled is run, or a function object is called through an engine.  The invocation starts in the
first state and comes to the result. -/
inductive Entered (p : Program) : Ambient Tier → Result Tier → Prop where
  | invoke {fuel : Nat} {id : FunctionId} {args : List Argument} {slots : ReturnSlots}
      {memory : Memory} {amb : Ambient Tier} {r : Result Tier}
      (h : invoke p Tier.dispatcher fuel id args slots memory amb = .ok r) : Entered p amb r
  | interpret {inner fuel : Nat} {id : FunctionId} {s : LoadedScript} {args : List Argument}
      {slots : ReturnSlots} {memory : Memory} {amb : Ambient Tier} {r : Result Tier}
      (h : interpret p.size (invoke p Tier.dispatcher inner) fuel id s args slots memory amb =
        .ok r) : Entered p amb r
  | runCompiled {inner fuel : Nat} {id : FunctionId} {s : Script} {ops : Array Lowered.Op}
      {args : List Argument} {slots : ReturnSlots} {memory : Memory} {amb : Ambient Tier}
      {r : Result Tier}
      (h : runCompiled p.size (invoke p Tier.dispatcher inner) fuel id s ops args slots memory amb =
        .ok r) : Entered p amb r
  | engineCall {fuel e : Nat} {id : FunctionId} {args : List Argument} {slots : ReturnSlots}
      {memory : Memory} {amb : Ambient Tier} {r : Result Tier}
      (h : engineCall p fuel e id args slots memory amb = .ok r) : Entered p amb r

/-- The states that a run passes through, from the state that it is started in: those of all
invocations in it, those in which an engine was installed for it, and those of an activation that
was started directly. -/
inductive Passes (p : Program) : Ambient Tier → Ambient Tier → Prop where
  | visits {v w : Invocation Tier} {amb : Ambient Tier} (hwithin : Within p Tier.dispatcher v w)
      (hvisits : Visits p Tier.dispatcher w amb) : Passes p v.ambient amb
  | install {amb : Ambient Tier} (e : Nat) : Passes p amb { amb with tier := amb.tier.install e }
  | activation {amb : Ambient Tier} {inner : Nat} {id : FunctionId} {s : Script}
      {values : List Value} {frame : Frame} {frames : FrameStack} {slots : ReturnSlots}
      {memory : Memory} {effectAt : Activation → Option (Except Trap Effect)}
      {last : Activation × Ambient Tier}
      (hpush : amb.frames.push s values = (.ok frame, frames))
      (hreach : Reaches p.size (TierVm.invoke p Tier.dispatcher inner) id effectAt
        (.start frame slots memory, { amb with frames }) last) : Passes p amb last.2
  | trans {amb₁ amb₂ amb₃ : Ambient Tier} (h₁ : Passes p amb₁ amb₂) (h₂ : Passes p amb₂ amb₃) :
      Passes p amb₁ amb₃

/-- However an invocation is entered, it keeps the state around it. -/
theorem kept_of_entered {p : Program} {amb : Ambient Tier} {r : Result Tier}
    (h : Entered p amb r) : amb.Kept (Tier.Evolves p) r.ambient := by
  have hd := Tier.dispatcher_keeps p
  cases h with
  | invoke h => exact invoke_kept hd _ h
  | interpret h =>
    rename_i s _ _ _
    rw [TierVm.interpret] at h
    cases hverdict : s.verdict with
    | error defect =>
      rw [hverdict] at h
      cases h
      exact hd.kept_refl _
    | ok u =>
      rw [hverdict] at h
      exact activate_kept hd (invoke_kept hd _) h
  | runCompiled h => exact activate_kept hd (invoke_kept hd _) h
  | engineCall h =>
    rw [TierVm.engineCall] at h
    split at h
    · cases h
    · rename_i inner hrun
      cases h
      have hkept := invoke_kept hd _ hrun
      exact ⟨hkept.1, hd.excursion hkept.2⟩

/-- The counter of frames is right in every state that a run passes through. -/
theorem counted_of_passes {p : Program} {before amb : Ambient Tier} (h : Passes p before amb)
    (hcounted : before.frames.Counted) : amb.frames.Counted := by
  have hd := Tier.dispatcher_keeps p
  induction h with
  | visits hwithin hvisits =>
    exact counted_of_visits hd hvisits (counted_of_within hd hwithin hcounted)
  | install e => exact hcounted
  | activation hpush hreach =>
    have hframes := (reaches_kept hd (invoke_kept hd _) hreach).1
    rw [hframes]
    exact hcounted.push hpush
  | trans _ _ ih₁ ih₂ => exact ih₂ (ih₁ hcounted)

/-- However an invocation is entered and however it ends, the frames afterwards are the frames from
before, with the same depth, and the engine that was installed is installed again.  In every state
in between, the depth is the number of frames and within the limit; for stacks are empty at first,
and only pushes and pops change them. -/
theorem ambient_restored (p : Program) :
    (∀ {amb : Ambient Tier} {r : Result Tier}, Entered p amb r →
        r.ambient.frames.frames = amb.frames.frames ∧ r.ambient.frames.depth = amb.frames.depth ∧
          r.ambient.tier.installed = amb.tier.installed) ∧
      (∀ {before amb : Ambient Tier}, before.frames.Counted → Passes p before amb →
        amb.frames.depth = amb.frames.frames.length ∧ amb.frames.depth ≤ maxFrameDepth) ∧
      ({} : FrameStack).Counted ∧
      (∀ {st : FrameStack} {frame : Frame}, st.Counted → st.depth < maxFrameDepth →
        (st.link frame).Counted) ∧
      (∀ {st st' : FrameStack} {s : Script} {args : List Value} {pushed : Except VmError Frame},
        st.Counted → st.push s args = (pushed, st') → st'.Counted) ∧
      ∀ {st st' : FrameStack}, st.Counted → st.pop = .ok st' → st'.Counted := by
  refine ⟨?_, ?_, FrameStack.counted_empty, ?_, ?_, ?_⟩
  · intro amb r h
    obtain ⟨hframes, hevolves⟩ := kept_of_entered h
    rw [hframes]
    exact ⟨rfl, rfl, hevolves.installed⟩
  · intro before amb hcounted h
    exact counted_of_passes h hcounted
  · intro st frame hcounted hroom
    exact hcounted.link hroom frame
  · intro st st' s args pushed hcounted hpush
    exact hcounted.push hpush
  · intro st st' hcounted hpop
    exact hcounted.pop hpop

/-- A program of one empty script. -/
def emptyScript : Program where
  functions := #[.script (Script.load { name := "f" })]

/-- A state with an engine that compiles every function at once, and is not installed. -/
def eagerEngine : Ambient Tier where
  tier := ({} : Tier).addEngine { policy := { callThreshold := 0 } }

/-- A call of an empty script through an engine that compiles it at once. -/
theorem ambient_restored_engineCall :
    (∃ r, engineCall emptyScript 2 0 0 [] (.fresh []) {} eagerEngine = .ok r ∧
      r.ambient.frames.frames = [] ∧ r.ambient.frames.depth = 0 ∧
        r.ambient.tier.installed = none) ∧
      eagerEngine.frames.Counted ∧ ∀ amb, Passes emptyScript eagerEngine amb →
        amb.frames.depth = amb.frames.frames.length ∧ amb.frames.depth ≤ maxFrameDepth := by
  obtain ⟨hrestored, hpasses, hempty, _⟩ := ambient_restored emptyScript
  obtain ⟨r, hr⟩ : ∃ r, engineCall emptyScript 2 0 0 [] (.fresh []) {} eagerEngine = .ok r :=
    ⟨_, rfl⟩
  refine ⟨⟨r, hr, hrestored (.engineCall hr)⟩, hempty, ?_⟩
  intro amb hamb
  exact hpasses hempty hamb

end TierVm
