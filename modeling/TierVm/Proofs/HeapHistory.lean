import TierVm.Proofs.HeapTraces

/-!
# Histories of the heap

A history is any sequence of allocations, stores and resets from outside and of calls, which
allocate and store on their own.  The ledger of its events tells the heap at its end, and also in
the midst of a call, however deep.

* `Called` are the ways to make a call, with the events of the call.  It may return or be aborted.
* `HeapRun` is a history, and `HeapRun.after?` its effect on memory.
* `Underway` are the activations in the midst of a call, and `Invoked` the invocations.
* `AnswersRequest` says how an instruction that asks for an object goes on.
* `object_heap_invariant`: in every history, objects are accounted for, requests are answered
  exactly, and nothing but a reset releases an object.
-/

namespace TierVm

open Lowering

variable {σ : Type}

/-! ## Answers to requests -/

section Answers

variable (functions : Nat) (call : Invoke σ) (self : FunctionId)
  (effectAt : Activation → Option (Except Trap Effect))

/-- How an instruction goes on that asks for an object. -/
structure AnswersRequest (act : Activation) (amb : Ambient σ) (index : Nat) (size : Int32) :
    Prop where
  /-- A size out of range aborts the activation, and memory is as it was. -/
  refused : size < 0 ∨ maxAllocSize < size → Ends functions call self effectAt (act, amb)
    ⟨.aborted (.ofAbort { reason := .arrayTooLarge, arg := size } (some ⟨self, act.pc⟩)),
      act.slots, act.memory, amb⟩
  /-- An object that is granted goes into the register, and only memory has changed besides. -/
  granted : ∀ {q : Address} {m : Memory}, act.memory.alloc size = .ok (q, m) →
    ∃ regs, act.regs.put? index (.pointer q) = some regs ∧
      Moves functions call self effectAt (act, amb)
        ({ act with pc := act.pc + 1, regs, memory := m }, amb)
  full : ∀ {st : Stop}, act.memory.alloc size = .error (.stop st) →
    turn functions call self effectAt act amb = .stuck st

variable {effectAt} {s : Script} {act : Activation} {index : Nat} {size : Int32}

/-- Requests are answered alike in both modes. -/
theorem Mode.answersRequest (hmode : Mode s effectAt) (hverify : s.verify = .ok ())
    (hfit : act.Fits s) (hrequest : s.requestAt act = some (index, size)) (amb : Ambient σ) :
    AnswersRequest functions call self effectAt act amb index size := by
  have heffect := hmode.request_effect hverify hfit hrequest
  rw [alloc_eq] at heffect
  -- A request that is not refused can be carried out if there is room.
  have hgood : ¬ Refused size → effectAt act = some (.ok (.alloc index (occupied size))) := by
    intro hgood
    rw [heffect, if_neg hgood]
  refine ⟨?_, ?_, ?_⟩
  · intro hbad
    have hrefused : Refused size := hbad
    rw [if_pos hrefused] at heffect
    exact .raises heffect
  · intro q m halloc
    obtain ⟨hok, hplace⟩ := Memory.alloc_eq_ok_iff.1 halloc
    obtain ⟨_, _, _, hsound⟩ := hmode.sound hverify hfit (hgood hok)
    have hindex : index < s.regs.of (Value.pointer q).regClass := hsound.1
    obtain ⟨regs, hregs, _⟩ := put?_fits hfit hindex
    have hperform : act.perform (.alloc index (occupied size)) =
        .ok (.next { act with pc := act.pc + 1, regs, memory := m } false) := by
      simp only [Activation.perform, hplace, hregs]
      rfl
    exact ⟨regs, hregs, .next (hgood hok) hperform⟩
  · intro st halloc
    obtain ⟨hok, hroom, rfl⟩ := Memory.alloc_eq_stop_iff.1 halloc
    have hplace : act.memory.place (occupied size) = .error .outOfMemory := if_pos hroom
    simp only [turn, hgood hok, Activation.perform, hplace]

end Answers

/-! ## Calls -/

section History

variable (p : Program) (d : Dispatcher σ) (I : σ → Prop)

/-- A call changes memory, by its events: a function object is called, or a script is run directly,
interpreted or as the code that it is lowered to.  However the call ends, it has a result. -/
inductive Called : Memory → List HeapEvent → Memory → Prop where
  | invoke {fuel : Nat} {id : FunctionId} {args : List Argument} {slots : ReturnSlots}
      {m : Memory} {amb : Ambient σ} {r : Result σ} (hI : I amb.tier)
      (hrun : invoke p d fuel id args slots m amb = .ok r) :
      Called m (invokeEvents p d fuel id args slots m amb) r.memory
  | interpret {inner fuel : Nat} {id : FunctionId} {s : LoadedScript} {args : List Argument}
      {slots : ReturnSlots} {m : Memory} {amb : Ambient σ} {r : Result σ} (hI : I amb.tier)
      (hrun : interpret p.size (invoke p d inner) fuel id s args slots m amb = .ok r) :
      Called m
        (interpretEvents p.size (TierVm.invoke p d inner) (invokeEvents p d inner) id fuel s args
          slots m amb)
        r.memory
  | runCompiled {inner fuel : Nat} {id : FunctionId} {s : Script} {ops : Array Lowered.Op}
      {args : List Argument} {slots : ReturnSlots} {m : Memory} {amb : Ambient σ} {r : Result σ}
      (hverify : s.verify = .ok ()) (hlower : lowerCode s = .ok ops) (hI : I amb.tier)
      (hrun : runCompiled p.size (invoke p d inner) fuel id s ops args slots m amb = .ok r) :
      Called m
        (frameEvents p.size (TierVm.invoke p d inner) (invokeEvents p d inner) id s (executeAt ops)
          fuel args slots m amb)
        r.memory

/-- A history: events from outside and calls, one after the other. -/
inductive HeapRun (m₀ : Memory) : List HeapEvent → Memory → Prop where
  | start : HeapRun m₀ [] m₀
  | event {events : List HeapEvent} {m m' : Memory} {e : HeapEvent}
      (hrun : HeapRun m₀ events m) (hstep : m.step? e = some m') :
      HeapRun m₀ (events ++ [e]) m'
  | call {events more : List HeapEvent} {m m' : Memory} (hrun : HeapRun m₀ events m)
      (hcall : Called p d I m more m') : HeapRun m₀ (events ++ more) m'

/-! ## In the midst of a call -/

/-- An activation of a verified script that was started directly in memory `m`. -/
inductive Activated (m : Memory) (fuel : Nat) (id : FunctionId) (s : Script)
    (effectAt : Activation → Option (Except Trap Effect)) : Activation × Ambient σ → Prop where
  | reached {values : List Value} {frame : Frame} {frames : FrameStack} {slots : ReturnSlots}
      {amb : Ambient σ} {last : Activation × Ambient σ} (hverify : s.verify = .ok ())
      (hmode : Mode s effectAt) (hI : I amb.tier)
      (hpush : amb.frames.push s values = (.ok frame, frames))
      (hreach : Reaches p.size (invoke p d fuel) id effectAt
        (.start frame slots m, { amb with frames }) last) : Activated m fuel id s effectAt last

/-- The invocations of a call that was made in memory `m`, at any depth. -/
inductive Invoked (m : Memory) : Invocation σ → Prop where
  | outermost {v : Invocation σ} (hm : v.memory = m) (hI : I v.ambient.tier) : Invoked m v
  | asked {fuel : Nat} {id : FunctionId} {s : Script}
      {effectAt : Activation → Option (Except Trap Effect)} {last : Activation × Ambient σ}
      {w : Invocation σ} (hactivated : Activated p d I m fuel id s effectAt last)
      (hasks : Asks p.size fuel effectAt last w) : Invoked m w
  | made {v w : Invocation σ} (hinvoked : Invoked m v) (hmakes : Makes p d v w) : Invoked m w

/-- The activations of a call that was made in memory `m`, at any depth. -/
inductive Underway (m : Memory) : Nat → FunctionId → Script →
    (Activation → Option (Except Trap Effect)) → Activation × Ambient σ → Prop where
  | activated {fuel : Nat} {id : FunctionId} {s : Script}
      {effectAt : Activation → Option (Except Trap Effect)} {last : Activation × Ambient σ}
      (h : Activated p d I m fuel id s effectAt last) : Underway m fuel id s effectAt last
  | invoked {fuel : Nat} {w : Invocation σ} {s : LoadedScript}
      {effectAt : Activation → Option (Except Trap Effect)} {first last : Activation × Ambient σ}
      (hinvoked : Invoked p d I m w) (hstart : Starts p d w s effectAt first)
      (hreach : Reaches p.size (invoke p d fuel) w.id effectAt first last) :
      Underway m fuel w.id s.script effectAt last

variable {p d I} {m₀ m m' : Memory} {events more : List HeapEvent} (hd : d.Policy p I)

/-- A call through an engine is a call. -/
theorem called_of_engineCall {p : Program} {fuel e : Nat} {id : FunctionId} {args : List Argument}
    {slots : ReturnSlots} {m : Memory} {amb : Ambient Tier} {r : Result Tier}
    (hcompiled : amb.tier.Compiled p) (h : engineCall p fuel e id args slots m amb = .ok r) :
    Called p Tier.dispatcher (Tier.Compiled p) m
      (invokeEvents p Tier.dispatcher fuel id args slots m
        { amb with tier := amb.tier.install e })
      r.memory := by
  rw [engineCall] at h
  split at h
  · cases h
  · rename_i inner hrun
    cases h
    show Called p Tier.dispatcher (Tier.Compiled p) m _ inner.memory
    exact .invoke hcompiled hrun

include hd

/-- A call does to memory what its events say, and a reset is none of them. -/
theorem Called.becomes (h : Called p d I m more m') : m.Becomes more m' := by
  cases h with
  | invoke hI hrun => exact invoke_becomes hd _ hI hrun
  | interpret hI hrun =>
    exact interpret_becomes (invoke_becomes hd _) hd (invoke_kept hd.keeps _) hI hrun
  | runCompiled hverify hlower hI hrun =>
    exact activate_becomes (invoke_becomes hd _) (.compiled hlower) hverify hd
      (invoke_kept hd.keeps _) hI hrun

/-- A history does to memory what its events say. -/
theorem HeapRun.after? (h : HeapRun p d I m₀ events m) : m₀.after? events = some m := by
  induction h with
  | start => rfl
  | event _ hstep ih =>
    rw [Memory.after?_append, ih, Option.bind_some, Memory.after?_cons, hstep]
    rfl
  | call _ hcall ih =>
    rw [Memory.after?_append, ih]
    exact (hcall.becomes hd).2

theorem Activated.becomes {fuel : Nat} {id : FunctionId} {s : Script}
    {effectAt : Activation → Option (Except Trap Effect)} {last : Activation × Ambient σ}
    (h : Activated p d I m fuel id s effectAt last) :
    s.verify = .ok () ∧ Mode s effectAt ∧ last.1.Fits s ∧ I last.2.tier ∧
      ∃ more, m.Becomes more last.1.memory := by
  obtain ⟨hverify, hmode, hI, hpush, hreach⟩ := h
  have hfit := fits_start hverify hpush
  have hkept := invoke_kept hd.keeps fuel
  exact ⟨hverify, hmode, fits_of_reaches hmode hverify (hfit _ m) hreach,
    (reaches_kept hd.keeps hkept hreach).2 hI,
    reaches_becomes (invoke_becomes hd fuel) hmode hverify hd hkept (hfit _ m) hI hreach⟩

theorem Invoked.becomes {w : Invocation σ} (h : Invoked p d I m w) :
    I w.ambient.tier ∧ ∃ more, m.Becomes more w.memory := by
  induction h with
  | outermost hm hI =>
    rw [hm]
    exact ⟨hI, _, .refl _⟩
  | asked hactivated hasks =>
    obtain ⟨_, _, _, hI, hmore⟩ := hactivated.becomes hd
    obtain ⟨_, hperform, _⟩ := hasks
    obtain ⟨_, _, _, _, rfl, _⟩ := perform_eq_call hperform
    exact ⟨hI, hmore⟩
  | made _ hmakes ih =>
    obtain ⟨hI, more, hmore⟩ := ih
    obtain ⟨hI', more', hmore'⟩ := makes_becomes hd hI hmakes
    exact ⟨hI', _, hmore.append hmore'⟩

/-- An activation in the midst of a call runs a verified script in one of the two modes, and some
events lead to its memory. -/
theorem Underway.becomes {fuel : Nat} {id : FunctionId} {s : Script}
    {effectAt : Activation → Option (Except Trap Effect)} {last : Activation × Ambient σ}
    (h : Underway p d I m fuel id s effectAt last) :
    s.verify = .ok () ∧ Mode s effectAt ∧ last.1.Fits s ∧ ∃ more, m.Becomes more last.1.memory := by
  cases h with
  | activated h =>
    obtain ⟨hverify, hmode, hfit, _, hmore⟩ := h.becomes hd
    exact ⟨hverify, hmode, hfit, hmore⟩
  | invoked hinvoked hstart hreach =>
    obtain ⟨hI, more, hmore⟩ := hinvoked.becomes hd
    obtain ⟨hverify, hmode, hfit, _, more', hmore'⟩ := starts_becomes hd hI hstart hreach
    exact ⟨hverify, hmode, hfit, _, hmore.append hmore'⟩

omit hd

/-! ## The invariant -/

/-- Events without a reset lead from the end `m` of a history on to `m'`. -/
structure Continues (m₀ : Memory) (events : List HeapEvent) (m : Memory) (more : List HeapEvent)
    (m' : Memory) : Prop where
  unreleased : .reset ∉ more
  accounted : Memory.Accounted m₀ (events ++ more) m'
  /-- What lived before lives on, with the bytes that were stored since. -/
  buffers : m.buffers.Keeps more m'.buffers
  objects : m.objects.Keeps more m'.objects
  requests : m'.AllocatesExactly

theorem Memory.Becomes.continues (h : m.Becomes more m') (hm : Memory.Accounted m₀ events m) :
    Continues m₀ events m more m' := by
  obtain ⟨hplaced, hbuffers, hobjects⟩ := Memory.keeps_after? hm.placed h.1 h.2
  exact ⟨h.1, hm.after? h.2, hbuffers, hobjects, hplaced.allocatesExactly⟩

variable (p d I)

/-- The heap at the end of a history: how it came about, and how it goes on. -/
structure ObjectHeap (m₀ : Memory) (events : List HeapEvent) (m : Memory) : Prop where
  accounted : Memory.Accounted m₀ events m
  requests : m.AllocatesExactly
  /-- A reset releases all objects, and nothing else. -/
  reset : m.reset.allocated = 0 ∧ m.reset.objects.blocks = #[] ∧ m.reset.buffers = m.buffers
  /-- Requests and stores from outside release nothing. -/
  event : ∀ {e : HeapEvent} {m' : Memory}, e ≠ .reset → m.step? e = some m' →
    Continues m₀ events m [e] m'
  /-- Nor does a call, whether it returns or is aborted. -/
  call : ∀ {more : List HeapEvent} {m' : Memory}, Called p d I m more m' →
    Continues m₀ events m more m'
  /-- The same holds of every invocation in the midst of a call. -/
  invocation : ∀ {w : Invocation σ}, Invoked p d I m w → ∃ done,
    Continues m₀ events m done w.memory ∧ ∀ {r : Result σ}, w.run p d = .ok r →
      Continues m₀ (events ++ done) w.memory
        (invokeEvents p d w.fuel w.id w.args w.slots w.memory w.ambient) r.memory
  /-- Scripts in the midst of a call, in both modes, and the requests that they make. -/
  script : ∀ {fuel : Nat} {id : FunctionId} {s : Script}
    {effectAt : Activation → Option (Except Trap Effect)} {act : Activation} {amb : Ambient σ},
    Underway p d I m fuel id s effectAt (act, amb) →
      (∃ done, Continues m₀ events m done act.memory) ∧
      ∀ {index : Nat} {size : Int32}, s.requestAt act = some (index, size) →
        AnswersRequest p.size (invoke p d fuel) id effectAt act amb index size
  /-- Native functions in the midst of a call, and what they learn of their requests. -/
  native : ∀ {fuel : Nat} {w : Invocation σ} {n : Native} {st : HostState σ},
    Invoked p d I m w → p.functions[w.id]? = some (.native n) →
    HostReaches d (invoke p d fuel) w.args (w.hostState n) st →
      (∃ done, Continues m₀ events m done st.memory) ∧
      ∀ {size : Int32} {next : Except Abort Address → HostProgram}, st.program = .alloc size next →
        (size < 0 ∨ maxAllocSize < size → HostMoves d (invoke p d fuel) w.args st
          { st with program := next (.error { reason := .arrayTooLarge, arg := size }) }) ∧
        ∀ {q : Address} {m' : Memory}, st.memory.alloc size = .ok (q, m') →
          HostMoves d (invoke p d fuel) w.args st
            { st with program := next (.ok q), memory := m' }

variable {p d I}

/-- In every history of requests, stores, resets and calls, under every policy:

* the bytes allocated are the sum of what the live objects occupy, one byte at least for each;
* a request is refused exactly if its size is negative or too large, with the size as the argument
  of the abort, and then memory is as it was;
* an object that is granted lies apart from all that lives, holds zeros, and changes nothing else;
* objects live until a reset with what was stored in them, also when the call that made them is
  aborted, and a reset leaves no byte allocated.

All this holds as well in the midst of calls, however deep, interpreted or compiled. -/
theorem object_heap_invariant (hd : d.Policy p I) (hplaced : m₀.WellPlaced)
    (hempty : m₀.objects.blocks = #[]) (hzero : m₀.allocated = 0)
    (h : HeapRun p d I m₀ events m) : ObjectHeap p d I m₀ events m := by
  have hm : Memory.Accounted m₀ events m :=
    (Memory.accounted_nil hplaced hempty hzero).after? (h.after? hd)
  refine ⟨hm, hm.placed.allocatesExactly, ⟨rfl, rfl, rfl⟩, ?_, ?_, ?_, ?_, ?_⟩
  · intro e m' hreset hstep
    exact (Memory.Becomes.single hreset hstep).continues hm
  · intro more m' hcall
    exact (hcall.becomes hd).continues hm
  · intro w hinvoked
    obtain ⟨hI, done, hdone⟩ := hinvoked.becomes hd
    have hbefore := hdone.continues hm
    refine ⟨done, hbefore, ?_⟩
    intro r hrun
    exact (invoke_becomes hd w.fuel hI hrun).continues hbefore.accounted
  · intro fuel id s effectAt act amb hunderway
    obtain ⟨hverify, hmode, hfit, done, hdone⟩ := hunderway.becomes hd
    refine ⟨⟨done, hdone.continues hm⟩, ?_⟩
    intro index size hrequest
    exact hmode.answersRequest p.size (invoke p d fuel) id hverify hfit hrequest amb
  · intro fuel w n st hinvoked hnative hreach
    obtain ⟨hI, done, hdone⟩ := hinvoked.becomes hd
    obtain ⟨more, hmore⟩ := hostReaches_becomes (invoke_becomes hd fuel) hd
      (invoke_kept hd.keeps fuel) hI hreach
    refine ⟨⟨_, (hdone.append hmore).continues hm⟩, ?_⟩
    intro size next hprogram
    obtain ⟨program, slots, memory, amb⟩ := st
    cases hprogram
    refine ⟨?_, ?_⟩
    · intro hbad
      exact .refused (Memory.alloc_eq_abort_iff.2 ⟨hbad, rfl⟩)
    · intro q m' halloc
      exact .alloc halloc

end History

/-- A script that makes an object of size zero, stores a byte in it and asks for too large a second
one. -/
def hoards : Script where
  name := "hoards"
  code := #[.make .newK 0 0 0, .make (.store .i8 .konst) 0 0 0, .make .newK 0 1 0]
  konst := { ints := #[0, 16777217] }
  regs := { int := 1, pointer := 1 }

/-- A program of this script. -/
def hoarding : Program where
  functions := #[.script hoards.load]

/-- A call of the script through an engine that compiles it at once. -/
def hoard : Except Stop (Result Tier) :=
  engineCall hoarding 4 0 0 [{ value := .int 7 }] (.fresh []) (.ofBuffers [[0]]) eagerEngine

/-- The call is aborted.  The object that it has made lives on with the byte stored in it, beside
one that is made afterwards, until a reset. -/
theorem object_heap_invariant_hoarding :
    ∃ r m, hoard = .ok r ∧
      r.outcome = .aborted { reason := .arrayTooLarge, arg := 16777217, place := some ⟨0, 2⟩ } ∧
      r.memory.step? (.alloc 12) = some m ∧ m.allocated = 13 ∧ m.reset.allocated = 0 ∧
      (∃ start b, m.objects.Has start b ∧ b.size = 1 ∧ b.byte 0 = 7) ∧
      ObjectHeap hoarding Tier.dispatcher (Tier.Compiled hoarding) (.ofBuffers [[0]])
        [.alloc 0, .store 0x1b873c6ef372fe90 [7], .alloc 16777217, .alloc 12] m := by
  have hplaced : (Memory.ofBuffers [[0]]).WellPlaced :=
    Memory.wellPlaced_ofBuffers (by decide) (by decide)
  have hcompiled : eagerEngine.tier.Compiled hoarding :=
    Tier.compiled_of_history (.addEngine _ (.start _))
  have hobserved : hoard.toOption.map (fun r =>
      (r.outcome, (r.memory.step? (.alloc 12)).isSome, r.memory.objects.base 0,
        r.memory.objects.blocks[0]?.map (·.size))) =
      some (.aborted { reason := .arrayTooLarge, arg := 16777217, place := some ⟨0, 2⟩ }, true,
        0x1b873c6ef372fe90, some 1) := by
    decide +kernel
  have hevents : invokeEvents hoarding Tier.dispatcher 4 0 [{ value := .int 7 }] (.fresh [])
      (.ofBuffers [[0]]) { eagerEngine with tier := eagerEngine.tier.install 0 } =
        [.alloc 0, .store 0x1b873c6ef372fe90 [7], .alloc 16777217] := by
    decide +kernel
  cases hrun : hoard with
  | error st =>
    rw [hrun] at hobserved
    cases hobserved
  | ok r =>
    rw [hrun] at hobserved
    simp only [Except.toOption, Option.map_some, Option.some.injEq, Prod.mk.injEq] at hobserved
    obtain ⟨houtcome, hroom, hbase, hfirst⟩ := hobserved
    obtain ⟨m, halloc⟩ := Option.isSome_iff_exists.1 hroom
    obtain ⟨b, hb, hsize⟩ := Option.map_eq_some_iff.1 hfirst
    have hcalled := called_of_engineCall hcompiled hrun
    rw [hevents] at hcalled
    have hreturned := HeapRun.call .start hcalled
    have hbefore := object_heap_invariant (Tier.policy hoarding) hplaced rfl rfl hreturned
    have hafter := object_heap_invariant (Tier.policy hoarding) hplaced rfl rfl
      (.event hreturned halloc)
    refine ⟨r, m, rfl, houtcome, halloc, ?_, hafter.reset.1, ?_, hafter⟩
    · rw [hafter.accounted.allocated]
      decide +kernel
    · have hlives : r.memory.objects.Has 0x1b873c6ef372fe90 b := ⟨0, hb, hbase.symm⟩
      obtain ⟨b', hb', hsize', hbytes⟩ :=
        (hbefore.event (HeapEvent.alloc_ne_reset 12) halloc).objects hlives
      refine ⟨_, b', hb', hsize'.trans hsize, ?_⟩
      rw [hbytes 0 (by omega), hbefore.accounted.contents hlives 0 (by omega)]
      decide +kernel

end TierVm
