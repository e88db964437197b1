import TierVm.Proofs.Callbacks
import TierVm.Proofs.Policies

/-!
# Termination without backward jumps

Two things can keep a run from ending: a loop in a script, and recursion.  A script without
backward jumps has no loops, for every instruction leads on.  Recursion is cut off where the frame
stack is full.  The measure is thus lexicographic: the room on the frame stack first, the code
ahead of the activation second.

* `Script.Forward` says that no jump leads back, and `moves_forward` that every instruction then
  leads on, in both modes.  So an activation executes each instruction at most once
  (`length_executed_le`), and has enough fuel if it has as much as its code is long
  (`runActivation_ends`).
* `depth_of_makes`: a script calls with one frame more than it was called with, so no more
  activations are nested than frames fit (`nested_le`).
* `Faults` are the places at which a run has no outcome, because it uses memory that does not
  exist or an address that is no function.  A run `Settles` if it comes to a result or to one of
  them, and `settles_of_room` is the induction over the room on the frame stack.
* `forward_runs_end` puts the pieces together.
-/

namespace TierVm

open Interpreter

variable {σ : Type}

/-! ## Scripts without backward jumps -/

/-- No jump of the script has a negative offset. -/
def Script.Forward (s : Script) : Prop := ∀ i ∈ s.code, i.opcode? = some .jmp → 0 ≤ i.abc

/-- The function has no backward jumps. -/
def Function.Forward : Function → Prop
  | .script s => s.script.Forward
  | .native _ => True

/-- No script of the program has backward jumps. -/
def Program.Forward (p : Program) : Prop := ∀ f ∈ p.functions, f.Forward

instance (s : Script) : Decidable s.Forward :=
  inferInstanceAs (Decidable (∀ i ∈ s.code, i.opcode? = some .jmp → 0 ≤ i.abc))

instance (f : Function) : Decidable f.Forward :=
  match f with
  | .script s => inferInstanceAs (Decidable s.script.Forward)
  | .native _ => inferInstanceAs (Decidable True)

instance (p : Program) : Decidable p.Forward :=
  inferInstanceAs (Decidable (∀ f ∈ p.functions, f.Forward))

theorem Program.Forward.script {p : Program} (h : p.Forward) {id : FunctionId} {s : LoadedScript}
    (hscript : p.functions[id]? = some (.script s)) : s.script.Forward :=
  h _ (Array.mem_of_getElem? hscript)

/-! ## Every instruction leads on -/

/-- The effect leads to a later instruction, if it says where to go on. -/
def Effect.Advances (act : Activation) : Effect → Prop
  | .goto pc _ => act.pc < pc
  | _ => True

/-- An instruction that comes to an effect leads on. -/
def Advances (act : Activation) (outcome : Except Trap Effect) : Prop :=
  ∀ e, outcome = .ok e → e.Advances act

section Advances

variable {s : Script} {act : Activation} {i : Instr}

theorem Advances.ok {e : Effect} (h : e.Advances act) : Advances act (.ok e) := by
  intro e' heq
  cases heq
  exact h

theorem Advances.error (trap : Trap) : Advances act (.error trap) := by
  intro _ h
  cases h

theorem Advances.bind {α : Type} {m : Except Trap α} {f : α → Except Trap Effect}
    (hf : ∀ x, Advances act (f x)) : Advances act (m >>= f) := by
  intro e h
  obtain ⟨x, _, hx⟩ := bind_eq_ok_iff.1 h
  exact hf x e hx

theorem advances_onward : Advances act (.ok act.onward) := .ok (Nat.lt_succ_self _)

theorem advances_skipWhen (hpc : act.pc < s.code.size) (skip : Bool) :
    Advances act (.ok (skipWhen s act skip)) := by
  cases skip with
  | true =>
    apply Advances.ok
    show act.pc < min (act.pc + 2) s.code.size
    omega
  | false => exact advances_onward

theorem advances_jump (habc : 0 ≤ i.abc) : Advances act (jump s act i) := by
  intro e h
  have hoffset : 0 ≤ i.abc.toInt := Int32.le_iff_toInt_le.1 habc
  simp only [jump] at h
  split at h
  · cases h
    show act.pc < (jumpTarget act.pc i).toNat
    simp only [jumpTarget]
    omega
  · cases h

theorem advances_checkBound (index limit : Int32) :
    Advances act (act.checkBound index limit) := by
  unfold Activation.checkBound
  split
  · exact .error _
  · exact advances_onward

theorem advances_give (slot : Nat) (v : Value) (last : Bool) :
    Advances act (act.give slot v last) := by
  unfold Activation.give
  split
  · exact .ok trivial
  · exact .error _

theorem advances_giveBack (op : Opcode) : Advances act (giveBack s act op i) := by
  simp only [giveBack]
  split
  · split <;> exact .bind fun v => advances_give _ v _
  · exact .ok trivial

theorem advances_pushParam (q : Param) : Advances act (pushParam s act q) := by
  unfold pushParam
  split
  · exact .error _
  · exact .ok trivial

theorem advances_call (callee : Address) : Advances act (call s act callee i) := by
  simp only [call]
  split
  · exact .error _
  · split
    · exact .error _
    · exact .bind fun _ => .ok trivial

theorem advances_load (w : Width) (index : Nat) (base : Address) (offset : Int32) :
    Advances act (act.load w index base offset) := by
  unfold Activation.load
  split
  · exact .error _
  · split
    · exact .ok trivial
    · exact .error _

theorem advances_store (w : Width) (base : Address) (offset : Int32) (v : Value) :
    Advances act (Activation.store w base offset v) := by
  unfold Activation.store
  split
  · exact .error _
  · exact .ok trivial

theorem advances_alloc (index : Nat) (size : Int32) :
    Advances act (Activation.alloc index size) := by
  unfold Activation.alloc
  split
  · exact .ok trivial
  · exact .error _

/-- The operation of an instruction leads on, if it is no jump or one that does. -/
theorem execute_advances {op : Opcode} (hpc : act.pc < s.code.size)
    (hforward : op = .jmp → 0 ≤ i.abc) : Advances act (execute s act op i) := by
  cases op with
  | nop | result => exact advances_onward
  | jmp => exact advances_jump (hforward rfl)
  | test | testn => exact .bind fun _ => advances_skipWhen hpc _
  | ret =>
    simp only [execute]
    split
    · exact .ok trivial
    · exact advances_giveBack .ret
  | reti => exact advances_giveBack .reti
  | throw =>
    simp only [execute]
    split <;> exact .bind fun _ => .error _
  | bound => exact .bind fun index => advances_checkBound index _
  | boundK | boundR => exact .bind fun index => .bind fun limit => advances_checkBound index limit
  | li => exact .ok trivial
  | lk | lkf | lks | lkp | mov | movf | movs | mova => exact .bind fun _ => .ok trivial
  | load w o => exact .bind fun base => .bind fun offset => advances_load w _ base offset
  | store w o =>
    exact .bind fun base => .bind fun offset => .bind fun v => advances_store w base offset v
  | cast =>
    simp only [execute]
    split
    · rename_i kind _
      cases kind <;> exact .bind fun _ => .ok trivial
    · exact .error _
  | param => exact .bind fun q => advances_pushParam q
  | parami => exact advances_pushParam _
  | call | callK => exact .bind fun callee => advances_call callee
  | new | newK => exact .bind fun size => advances_alloc _ size
  | lens | abs | neg | not | sext | flop => exact .bind fun _ => .ok trivial
  | concat | addaRR | addaRK | suba => exact .bind fun _ => .bind fun _ => .ok trivial
  | cmps | eqaR | eqaK => exact .bind fun _ => .bind fun _ => advances_skipWhen hpc _
  | intCmp cmp form | floatCmp cmp form => exact .bind fun _ => advances_skipWhen hpc _
  | intOp o form | floatOp o form =>
    refine .bind fun inputs => ?_
    simp only
    split
    · exact .ok trivial
    · exact .error _

/-- Lowering does not change where an effect leads. -/
theorem Effect.advances_lowered {e : Effect} : e.lowered.Advances act ↔ e.Advances act := by
  cases e <;> rfl

/-- In both modes, an instruction of a verified script without backward jumps leads on. -/
theorem Mode.advances {effectAt : Activation → Option (Except Trap Effect)}
    (hmode : Mode s effectAt) (hverify : s.verify = .ok ()) (hforward : s.Forward)
    (hfit : act.Fits s) {e : Effect} (he : effectAt act = some (.ok e)) : e.Advances act := by
  obtain ⟨_, hnone⟩ | ⟨op, i, hstands, heq⟩ := hmode.cases hverify hfit
  · rw [hnone] at he
    cases he
  · have hstep : Advances act (step s act i) := by
      rw [step, hstands.opcode]
      apply execute_advances hstands.pc_lt
      rintro rfl
      exact hforward i (Array.mem_of_getElem? hstands.instr) hstands.opcode
    rcases heq with heq | heq
    · rw [heq] at he
      exact hstep e (Option.some.inj he)
    · rw [heq] at he
      obtain ⟨plain, hplain, rfl⟩ := map_eq_ok_iff.1 (Option.some.inj he)
      exact Effect.advances_lowered.2 (hstep plain hplain)

/-- Carrying out an effect that leads on. -/
theorem pc_of_perform {act' : Activation} {e : Effect} {backward : Bool} (he : e.Advances act)
    (h : act.perform e = .ok (.next act' backward)) : act.pc < act'.pc := by
  cases e with
  | put index v | store address bytes | param slot q =>
    simp only [Activation.perform] at h
    split at h
    · cases h
      exact Nat.lt_succ_self _
    · cases h
  | alloc index size =>
    simp only [Activation.perform] at h
    split at h
    · cases h
    · split at h
      · cases h
        exact Nat.lt_succ_self _
      · cases h
  | give slot v last =>
    cases last with
    | true => cases h
    | false =>
      cases h
      exact Nat.lt_succ_self _
  | goto pc backward =>
    cases h
    exact he
  | call callee first count targets cells =>
    simp only [Activation.perform] at h
    split at h <;> cases h
  | leave => cases h

end Advances

/-! ## Activations -/

section Activations

variable {s : Script} {functions : Nat} {call : Invoke σ} {self : FunctionId}
  {effectAt : Activation → Option (Except Trap Effect)} (hmode : Mode s effectAt)
  (hverify : s.verify = .ok ()) (hforward : s.Forward)

include hmode hverify hforward

/-- One instruction takes an activation to a later position: a call leads behind its results. -/
theorem moves_forward {before after : Activation × Ambient σ} (hfit : before.1.Fits s)
    (h : Moves functions call self effectAt before after) : before.1.pc < after.1.pc := by
  cases h with
  | next heffect hperform =>
    exact pc_of_perform (hmode.advances hverify hforward hfit heffect) hperform
  | call heffect hperform hcallee hcall hfinished =>
    obtain ⟨first, count, cells, rfl, rfl, _⟩ := perform_eq_call hperform
    simp only [Activation.resume]
    omega

/-- The instructions that an activation executes one after the other are no more than lie ahead of
the first. -/
theorem length_executed_le {first : Activation × Ambient σ} {rest : List (Activation × Ambient σ)}
    (hfit : first.1.Fits s)
    (hpath : List.IsChain (Moves functions call self effectAt) (first :: rest))
    (hexecuted : ∀ state ∈ first :: rest, effectAt state.1 ≠ none) :
    first.1.pc + (first :: rest).length ≤ s.code.size := by
  induction rest generalizing first with
  | nil =>
    have hat := hexecuted first (List.mem_singleton_self first)
    obtain ⟨_, hnone⟩ | ⟨op, i, hstands, _⟩ := hmode.cases hverify hfit
    · exact absurd hnone hat
    · exact hstands.pc_lt
  | cons second rest ih =>
    obtain ⟨hmove, hpath⟩ := List.isChain_cons_cons.1 hpath
    have hlater := moves_forward hmode hverify hforward hfit hmove
    have hbound := ih (fits_of_moves hmode hverify hfit hmove) hpath
      fun state hstate => hexecuted state (List.mem_cons_of_mem _ hstate)
    simp only [List.length_cons] at hbound ⊢
    omega

variable (functions call self) in
/-- With as much fuel as code lies ahead, an activation comes to a result, or it comes to an
instruction at which it is stuck. -/
theorem runActivation_ends {fuel : Nat} {act : Activation} (amb : Ambient σ) (hfit : act.Fits s)
    (hfuel : s.code.size < act.pc + fuel) :
    (∃ r, runActivation functions call self effectAt fuel act amb = .ok r) ∨
      ∃ state st, Reaches functions call self effectAt (act, amb) state ∧
        turn functions call self effectAt state.1 state.2 = .stuck st ∧
        runActivation functions call self effectAt fuel act amb = .error st := by
  induction fuel generalizing act amb with
  | zero =>
    have hpc := hfit.admits.1
    omega
  | succ fuel ih =>
    rw [runActivation_succ]
    obtain ⟨act', amb', hturn, hmove⟩ | ⟨r, hturn, _⟩ | ⟨st, hturn⟩ :=
      turn_cases functions call self effectAt act amb
    · rw [hturn]
      have hlater : act.pc < act'.pc := moves_forward hmode hverify hforward hfit hmove
      have hfit' : act'.Fits s := fits_of_moves hmode hverify hfit hmove
      obtain ⟨r, hrun⟩ | ⟨state, st, hreach, hstuck, hrun⟩ := ih amb' hfit' (by omega)
      · exact .inl ⟨r, hrun⟩
      · exact .inr ⟨state, st, .head hmove hreach, hstuck, hrun⟩
    · rw [hturn]
      exact .inl ⟨r, rfl⟩
    · exact .inr ⟨(act, amb), st, .refl, hturn, by rw [hturn]⟩

end Activations

/-! ## Nested activations -/

section Nesting

variable {p : Program} {d : Dispatcher σ} {R : σ → σ → Prop} (hd : d.Keeps p R)

include hd

/-- There is room for the frame of an activation that starts. -/
theorem depth_of_starts {v : Invocation σ} {s : LoadedScript}
    {effectAt : Activation → Option (Except Trap Effect)} {first : Activation × Ambient σ}
    (hstart : Starts p d v s effectAt first) : v.ambient.frames.depth < maxFrameDepth := by
  obtain ⟨amb, frame, frames, hkept, hpush, _⟩ := starts_kept hd hstart
  rw [← hkept.1]
  exact (FrameStack.push_ok hpush).1

/-- A script calls with one frame more than it was called with. -/
theorem depth_of_makes {v w : Invocation σ} {s : LoadedScript}
    {effectAt : Activation → Option (Except Trap Effect)} {first : Activation × Ambient σ}
    (hstart : Starts p d v s effectAt first) (hmakes : Makes p d v w) :
    w.ambient.frames.depth = v.ambient.frames.depth + 1 := by
  cases hmakes with
  | script hfuel hstart hreach heffect hperform hcallee =>
    obtain ⟨amb, frame, frames, hkept, hpush, rfl⟩ := starts_kept hd hstart
    obtain ⟨_, _, rfl⟩ := FrameStack.push_ok hpush
    have hframes := (reaches_kept hd (invoke_kept hd _) hreach).1
    simp only at hframes ⊢
    rw [hframes, ← hkept.1]
    rfl
  | native hfuel hnative hreach hpassed =>
    have hscript := hstart.script
    rw [hnative] at hscript
    cases hscript

/-- Activations that are nested in one another, each started by a call of the one before, are no
more than there is room for frames. -/
theorem nested_le {v : Invocation σ} {inner : List (Invocation σ)}
    (hnested : List.IsChain (Makes p d) (v :: inner))
    (hstarts : ∀ w ∈ v :: inner, ∃ s effectAt first, Starts p d w s effectAt first) :
    v.ambient.frames.depth + (v :: inner).length ≤ maxFrameDepth := by
  induction inner generalizing v with
  | nil =>
    obtain ⟨s, effectAt, first, hstart⟩ := hstarts v (List.mem_singleton_self v)
    exact depth_of_starts hd hstart
  | cons w inner ih =>
    obtain ⟨hmakes, hnested⟩ := List.isChain_cons_cons.1 hnested
    obtain ⟨s, effectAt, first, hstart⟩ := hstarts v List.mem_cons_self
    have hdepth := depth_of_makes hd hstart hmakes
    have hbound := ih hnested fun w' hw' => hstarts w' (List.mem_cons_of_mem _ hw')
    simp only [List.length_cons] at hbound ⊢
    omega

end Nesting

/-! ## Faults -/

/-- A native function uses memory that does not exist, or the memory is used up. -/
inductive HostFaults : HostState σ → Stop → Prop where
  | load {address : Address} {count : Nat} {next : List UInt8 → HostProgram} {slots : ReturnSlots}
      {memory : Memory} {amb : Ambient σ} (hread : memory.read? address count = none) :
      HostFaults ⟨.load address count next, slots, memory, amb⟩ .badAccess
  | store {address : Address} {bytes : List UInt8} {next : HostProgram} {slots : ReturnSlots}
      {memory : Memory} {amb : Ambient σ} (hwrite : memory.write? address bytes = none) :
      HostFaults ⟨.store address bytes next, slots, memory, amb⟩ .badAccess
  | alloc {size : Int32} {next : Except Abort Address → HostProgram} {slots : ReturnSlots}
      {memory : Memory} {amb : Ambient σ} {st : Stop}
      (halloc : memory.alloc size = .error (.stop st)) :
      HostFaults ⟨.alloc size next, slots, memory, amb⟩ st

/-- An invocation comes to a place at which the machine has no outcome. -/
inductive Faults (p : Program) (d : Dispatcher σ) : Invocation σ → Stop → Prop where
  /-- An instruction reads memory that does not exist. -/
  | instruction {v : Invocation σ} {fuel : Nat} {s : LoadedScript}
      {effectAt : Activation → Option (Except Trap Effect)} {first : Activation × Ambient σ}
      {act : Activation} {amb : Ambient σ} {st : Stop} (hfuel : v.fuel = fuel + 1)
      (hstart : Starts p d v s effectAt first)
      (hreach : Reaches p.size (invoke p d fuel) v.id effectAt first (act, amb))
      (heffect : effectAt act = some (.error (.stop st))) : Faults p d v st
  /-- The effect of an instruction writes memory that does not exist, or the memory is used up. -/
  | effect {v : Invocation σ} {fuel : Nat} {s : LoadedScript}
      {effectAt : Activation → Option (Except Trap Effect)} {first : Activation × Ambient σ}
      {act : Activation} {amb : Ambient σ} {e : Effect} {st : Stop} (hfuel : v.fuel = fuel + 1)
      (hstart : Starts p d v s effectAt first)
      (hreach : Reaches p.size (invoke p d fuel) v.id effectAt first (act, amb))
      (heffect : effectAt act = some (.ok e)) (hperform : act.perform e = .error st) :
      Faults p d v st
  /-- An instruction calls an address that is no function. -/
  | callee {v : Invocation σ} {fuel : Nat} {s : LoadedScript}
      {effectAt : Activation → Option (Except Trap Effect)} {first : Activation × Ambient σ}
      {act act' : Activation} {amb : Ambient σ} {e : Effect} {callee : Address}
      {args : List Argument} {slots : ReturnSlots} {targets : List Target}
      (hfuel : v.fuel = fuel + 1) (hstart : Starts p d v s effectAt first)
      (hreach : Reaches p.size (invoke p d fuel) v.id effectAt first (act, amb))
      (heffect : effectAt act = some (.ok e))
      (hperform : act.perform e = .ok (.call act' callee args slots targets))
      (hcallee : functionAt? p.size callee = none) : Faults p d v .badAccess
  | native {v : Invocation σ} {fuel : Nat} {n : Native} {last : HostState σ} {st : Stop}
      (hfuel : v.fuel = fuel + 1) (hnative : p.functions[v.id]? = some (.native n))
      (hreach : HostReaches d (invoke p d fuel) v.args (v.hostState n) last)
      (hfaults : HostFaults last st) : Faults p d v st

theorem HostFaults.stop {last : HostState σ} {st : Stop} (h : HostFaults last st) :
    st = .badAccess ∨ st = .outOfMemory := by
  cases h with
  | load hread => exact .inl rfl
  | store hwrite => exact .inl rfl
  | alloc halloc =>
    simp only [Memory.alloc] at halloc
    split at halloc
    · cases halloc
    · split at halloc
      · cases halloc
      · rename_i hplace
        cases halloc
        exact .inr (place_error hplace)

/-- Under a policy, all faults are about memory or an address that is no function: verified scripts
meet no other. -/
theorem Faults.stop {p : Program} {d : Dispatcher σ} {I : σ → Prop} (hd : d.Policy p I)
    {v : Invocation σ} (hI : I v.ambient.tier) {st : Stop} (h : Faults p d v st) :
    st = .badAccess ∨ st = .outOfMemory := by
  cases h with
  | instruction hfuel hstart hreach heffect =>
    obtain ⟨hverify, hmode, hfits, _⟩ := hstart.mode hd hI
    have hfit := fits_of_reaches hmode hverify hfits hreach
    obtain ⟨op, i, _, hsound⟩ := hmode.sound hverify hfit heffect
    exact .inl hsound
  | effect hfuel hstart hreach heffect hperform =>
    obtain ⟨hverify, hmode, hfits, _⟩ := hstart.mode hd hI
    have hfit := fits_of_reaches hmode hverify hfits hreach
    obtain ⟨op, i, _, hsound⟩ := hmode.sound hverify hfit heffect
    have hperformed := perform_sound hfit hsound
    rw [hperform] at hperformed
    exact hperformed
  | callee hfuel hstart hreach heffect hperform hcallee => exact .inl rfl
  | native hfuel hnative hreach hfaults => exact hfaults.stop

/-- A native function that makes no calls comes to a result, or to a fault. -/
theorem runHost_ends {d : Dispatcher σ} {call : Invoke σ} {args : List Argument}
    {program : HostProgram} (hquiet : ∀ via, ¬ program.CallsVia via) (slots : ReturnSlots)
    (memory : Memory) (amb : Ambient σ) :
    (∃ r, runHost d call args program slots memory amb = .ok r) ∨
      ∃ last st, HostReaches d call args ⟨program, slots, memory, amb⟩ last ∧
        HostFaults last st ∧ runHost d call args program slots memory amb = .error st := by
  induction program generalizing slots memory amb with
  | finish count => exact .inl ⟨_, rfl⟩
  | fail e => exact .inl ⟨_, rfl⟩
  | write slot v next ih =>
    rw [runHost]
    cases hwrite : slots.write slot v with
    | error cls => exact .inl ⟨_, rfl⟩
    | ok slots' =>
      obtain hrun | ⟨last, st, hreach, hfaults, hrun⟩ := ih hquiet slots' memory amb
      · exact .inl hrun
      · exact .inr ⟨last, st, .head (.write hwrite) hreach, hfaults, hrun⟩
  | locate target next ih =>
    rw [runHost]
    have hnext : ∀ via, ¬ (next (target.resolve memory)).CallsVia via :=
      fun via h => hquiet via ⟨_, h⟩
    obtain hrun | ⟨last, st, hreach, hfaults, hrun⟩ := ih _ hnext slots memory amb
    · exact .inl hrun
    · exact .inr ⟨last, st, .head .locate hreach, hfaults, hrun⟩
  | load address count next ih =>
    rw [runHost]
    cases hread : memory.read? address count with
    | none => exact .inr ⟨_, _, .refl, .load hread, rfl⟩
    | some bytes =>
      have hnext : ∀ via, ¬ (next bytes).CallsVia via := fun via h => hquiet via ⟨_, h⟩
      obtain hrun | ⟨last, st, hreach, hfaults, hrun⟩ := ih bytes hnext slots memory amb
      · exact .inl hrun
      · exact .inr ⟨last, st, .head (.load hread) hreach, hfaults, hrun⟩
  | store address bytes next ih =>
    rw [runHost]
    cases hwrite : memory.write? address bytes with
    | none => exact .inr ⟨_, _, .refl, .store hwrite, rfl⟩
    | some memory' =>
      obtain hrun | ⟨last, st, hreach, hfaults, hrun⟩ := ih hquiet slots memory' amb
      · exact .inl hrun
      · exact .inr ⟨last, st, .head (.store hwrite) hreach, hfaults, hrun⟩
  | alloc size next ih =>
    rw [runHost]
    have hnext : ∀ result via, ¬ (next result).CallsVia via :=
      fun result via h => hquiet via ⟨result, h⟩
    cases halloc : memory.alloc size with
    | ok result =>
      obtain hrun | ⟨last, st, hreach, hfaults, hrun⟩ :=
        ih (.ok result.1) (hnext _) slots result.2 amb
      · exact .inl hrun
      · exact .inr ⟨last, st, .head (.alloc halloc) hreach, hfaults, hrun⟩
    | error trap =>
      cases trap with
      | stop st => exact .inr ⟨_, _, .refl, .alloc halloc, rfl⟩
      | abort a =>
        obtain hrun | ⟨last, st, hreach, hfaults, hrun⟩ := ih (.error a) (hnext _) slots memory amb
        · exact .inl hrun
        · exact .inr ⟨last, st, .head (.refused halloc) hreach, hfaults, hrun⟩
  | call via callee passed classes next ih => exact absurd (.inl rfl) (hquiet via)

/-! ## Invocations -/

/-- The number of instructions of a function. -/
def Function.codeLength : Function → Nat
  | .script s => s.script.code.size
  | .native _ => 0

/-- The number of instructions of the longest script. -/
def Program.longest (p : Program) : Nat :=
  (p.functions.toList.map Function.codeLength).max?.getD 0

theorem Program.le_longest {p : Program} {id : FunctionId} {s : LoadedScript}
    (hscript : p.functions[id]? = some (.script s)) : s.script.code.size ≤ p.longest := by
  have hmem : Function.script s ∈ p.functions.toList :=
    Array.mem_toList_iff.2 (Array.mem_of_getElem? hscript)
  exact List.le_max?_getD_of_mem (List.mem_map_of_mem (f := Function.codeLength) hmem)

/-- Addresses of functions lead to functions of the program. -/
theorem functionAt?_lt {count : Nat} {address : Address} {id : FunctionId}
    (h : functionAt? count address = some id) : id < count := by
  induction count with
  | zero => cases h
  | succ count ih =>
    simp only [functionAt?] at h
    split at h
    · cases h
      exact Nat.lt_succ_self _
    · exact Nat.lt_succ_of_lt (ih h)

/-- The invocation comes to a result, or to a fault in it or in an invocation that is part of its
run. -/
def Invocation.Settles (p : Program) (d : Dispatcher σ) (v : Invocation σ) : Prop :=
  (∃ r, v.run p d = .ok r) ∨
    ∃ w st, Within p d v w ∧ Faults p d w st ∧ v.run p d = .error st

section Invocations

variable {p : Program} {d : Dispatcher σ}

/-- An invocation of a script is refused, or its activation runs. -/
theorem Invocation.run_script {v : Invocation σ} {fuel : Nat} (hfuel : v.fuel = fuel + 1)
    {s : LoadedScript} (hscript : p.functions[v.id]? = some (.script s)) :
    (∃ r, v.run p d = .ok r) ∨ ∃ effectAt first, Starts p d v s effectAt first ∧
      v.run p d = (runActivation p.size (invoke p d fuel) v.id effectAt fuel first.1
        first.2).map leaveFrame := by
  obtain ⟨_, id, args, slots, memory, amb⟩ := v
  cases hfuel
  simp only [Invocation.run, invoke, hscript]
  have hactivate : ∀ {effectAt amb'},
      (∀ {frame frames}, amb'.frames.push s.script (args.map (·.value)) = (.ok frame, frames) →
        Starts p d ⟨fuel + 1, id, args, slots, memory, amb⟩ s effectAt
          (.start frame slots memory, { amb' with frames })) →
      (∃ r, activate p.size (invoke p d fuel) id s.script effectAt fuel args slots memory amb' =
        .ok r) ∨ ∃ effectAt' first,
        Starts p d ⟨fuel + 1, id, args, slots, memory, amb⟩ s effectAt' first ∧
        activate p.size (invoke p d fuel) id s.script effectAt fuel args slots memory amb' =
          (runActivation p.size (invoke p d fuel) id effectAt' fuel first.1 first.2).map
            leaveFrame := by
    intro effectAt amb' hstart
    rw [activate]
    cases hpush : amb'.frames.push s.script (args.map (·.value)) with
    | mk pushed frames =>
      cases pushed with
      | error e => exact .inl ⟨_, rfl⟩
      | ok frame => exact .inr ⟨effectAt, _, hstart hpush, rfl⟩
  cases hchoice : d.dispatch id s.script amb with
  | mk code amb' =>
    cases code with
    | some code => exact hactivate fun hpush => .compiled hscript hchoice hpush
    | none =>
      simp only [interpret]
      cases hverdict : s.verdict with
      | error defect => exact .inl ⟨_, rfl⟩
      | ok u => exact hactivate fun hpush => .interpreted hscript hchoice hverdict hpush

/-- An activation that is stuck has come to a fault, or it stands at a call that does not come to a
result. -/
theorem faults_of_stuck {v : Invocation σ} {fuel : Nat} (hfuel : v.fuel = fuel + 1)
    {s : LoadedScript} {effectAt : Activation → Option (Except Trap Effect)}
    {first state : Activation × Ambient σ} (hstart : Starts p d v s effectAt first)
    (hreach : Reaches p.size (invoke p d fuel) v.id effectAt first state) {st : Stop}
    (hstuck : turn p.size (invoke p d fuel) v.id effectAt state.1 state.2 = .stuck st) :
    Faults p d v st ∨ ∃ w, Makes p d v w ∧ w.run p d = .error st := by
  obtain ⟨act, amb⟩ := state
  rw [turn] at hstuck
  cases heffect : effectAt act with
  | none => simp [heffect] at hstuck
  | some outcome =>
    cases outcome with
    | error trap =>
      cases trap with
      | abort a => simp [heffect] at hstuck
      | stop st' =>
        simp only [heffect, Turn.stuck.injEq] at hstuck
        subst hstuck
        exact .inl (.instruction hfuel hstart hreach heffect)
    | ok e =>
      simp only [heffect] at hstuck
      cases hperform : act.perform e with
      | error st' =>
        simp only [hperform, Turn.stuck.injEq] at hstuck
        subst hstuck
        exact .inl (.effect hfuel hstart hreach heffect hperform)
      | ok step =>
        simp only [hperform] at hstuck
        cases step with
        | leave act' count => cases hstuck
        | next act' backward => cases hstuck
        | call act' callee args slots targets =>
          simp only [follow] at hstuck
          cases hcallee : functionAt? p.size callee with
          | none =>
            simp only [hcallee, Turn.stuck.injEq] at hstuck
            subst hstuck
            exact .inl (.callee hfuel hstart hreach heffect hperform hcallee)
          | some id =>
            simp only [hcallee] at hstuck
            cases hcall : invoke p d fuel id args slots act'.memory amb with
            | error st' =>
              simp only [hcall, Turn.stuck.injEq] at hstuck
              subst hstuck
              exact .inr ⟨_, .script hfuel hstart hreach heffect hperform hcallee, hcall⟩
            | ok r =>
              simp only [hcall] at hstuck
              split at hstuck <;> cases hstuck

variable {I : σ → Prop} (hd : d.Policy p I) (hforward : p.Forward)
  (hquiet : ∀ via, ¬ p.CallsVia via)

include hd hforward hquiet

/-- An invocation settles if the invocations that it makes do, and its fuel is more than its code is
long. -/
theorem settles_of_made {v : Invocation σ} (hI : I v.ambient.tier) (hid : v.id < p.size)
    (hfuel : p.longest + 2 ≤ v.fuel) (hmade : ∀ w, Makes p d v w → w.Settles p d) :
    v.Settles p d := by
  obtain ⟨fuel, hsucc⟩ : ∃ fuel, v.fuel = fuel + 1 := ⟨v.fuel - 1, by omega⟩
  cases hfun : p.functions[v.id]? with
  | none =>
    rw [Array.getElem?_eq_none_iff] at hfun
    exact absurd hid (Nat.not_lt.2 hfun)
  | some f =>
    cases f with
    | native n =>
      have hbody : ∀ via, ¬ (n.body v.values v.slots.size).CallsVia via :=
        fun via h => hquiet via ⟨v.id, n, _, _, hfun, h⟩
      have hrun : v.run p d = runHost d (invoke p d fuel) v.args (n.body v.values v.slots.size)
          v.slots v.memory (v.hostState n).ambient := by
        rw [Invocation.run, hsucc, invoke, hfun]
        rfl
      rw [Invocation.Settles, hrun]
      obtain hends | ⟨last, st, hreach, hfaults, hstop⟩ :=
        runHost_ends hbody v.slots v.memory (v.hostState n).ambient
      · exact .inl hends
      · exact .inr ⟨v, st, .refl, .native hsucc hfun hreach hfaults, hstop⟩
    | script s =>
      obtain hends | ⟨effectAt, first, hstart, hrun⟩ := Invocation.run_script hsucc hfun
      · exact .inl hends
      · obtain ⟨hverify, hmode, hfit, _⟩ := hstart.mode hd hI
        have hlength := Program.le_longest hfun
        rw [Invocation.Settles, hrun]
        obtain ⟨r, hends⟩ | ⟨state, st, hreach, hstuck, hstop⟩ :=
          runActivation_ends p.size (invoke p d fuel) v.id hmode hverify (hforward.script hfun)
            first.2 hfit (show s.script.code.size < first.1.pc + fuel by omega)
        · exact .inl ⟨leaveFrame r, by rw [hends]; rfl⟩
        · rw [hstop]
          obtain hfaults | ⟨w, hmakes, hw⟩ := faults_of_stuck hsucc hstart hreach hstuck
          · exact .inr ⟨v, st, .refl, hfaults, rfl⟩
          · -- The call has not come to a result either, so the fault is inside it.
            obtain ⟨r, hr⟩ | ⟨w', st', hwithin, hfaults, hw'⟩ := hmade w hmakes
            · rw [hw] at hr
              cases hr
            · rw [hw] at hw'
              cases hw'
              exact .inr ⟨w', st, .head hmakes hwithin, hfaults, rfl⟩

omit hforward in
/-- Where native functions make no calls, an invocation that makes another one is one of a script,
and calls a function of the program with less fuel. -/
theorem starts_of_makes {v w : Invocation σ} (hI : I v.ambient.tier) (hmakes : Makes p d v w) :
    (∃ s effectAt first, Starts p d v s effectAt first) ∧ I w.ambient.tier ∧ w.id < p.size ∧
      v.fuel = w.fuel + 1 := by
  cases hmakes with
  | script hfuel hstart hreach heffect hperform hcallee =>
    obtain ⟨_, _, _, hIfirst⟩ := hstart.mode hd hI
    have hIamb := (reaches_kept hd.keeps (invoke_kept hd.keeps _) hreach).2 hIfirst
    exact ⟨⟨_, _, _, hstart⟩, hIamb, functionAt?_lt hcallee, hfuel⟩
  | native hfuel hnative hreach hpassed =>
    exact absurd (Program.callsVia_of_call hnative hreach) (hquiet _)

/-- Every invocation settles.  The induction is over the room on the frame stack: each call takes
one frame of it, and where none is left a script is refused. -/
theorem settles_of_room {room : Nat} {v : Invocation σ}
    (hroom : maxFrameDepth ≤ v.ambient.frames.depth + room) (hI : I v.ambient.tier)
    (hid : v.id < p.size) (hfuel : p.longest + room + 2 ≤ v.fuel) : v.Settles p d := by
  induction room generalizing v with
  | zero =>
    refine settles_of_made hd hforward hquiet hI hid hfuel ?_
    intro w hmakes
    obtain ⟨⟨s, effectAt, first, hstart⟩, _⟩ := starts_of_makes hd hquiet hI hmakes
    have hdepth := depth_of_starts hd.keeps hstart
    omega
  | succ room ih =>
    refine settles_of_made hd hforward hquiet hI hid (by omega) ?_
    intro w hmakes
    obtain ⟨⟨s, effectAt, first, hstart⟩, hIw, hidw, hless⟩ :=
      starts_of_makes hd hquiet hI hmakes
    have hdepth := depth_of_makes hd.keeps hstart hmakes
    exact ih (by omega) hIw hidw (by omega)

omit hforward in
/-- The invariant of the policy holds at the start of all invocations of a run. -/
theorem invariant_of_within {v w : Invocation σ} (hI : I v.ambient.tier) (h : Within p d v w) :
    I w.ambient.tier := by
  induction h with
  | refl => exact hI
  | tail _ hmakes ih => exact (starts_of_makes hd hquiet ih hmakes).2.1

end Invocations

/-! ## The result -/

/-- Fuel that is enough for every invocation of a program without backward jumps: the longest
script, and all frames that can be nested. -/
def Program.enoughFuel (p : Program) : Nat := p.longest + maxFrameDepth + 2

/-- In a program without backward jumps, whose native functions make no calls, every invocation
ends, under every policy and from every frame stack.  With fuel that depends on the program only,
it comes to a result, finished or aborted; or else it has used memory that does not exist, used
the memory up, or called an address that is no function.  On the way, no activation executes more
instructions than its script has, and no more activations are nested than frames fit on the
stack. -/
theorem forward_runs_end {p : Program} {d : Dispatcher σ} {I : σ → Prop} (hd : d.Policy p I)
    (hforward : p.Forward) (hquiet : ∀ via, ¬ p.CallsVia via) {v : Invocation σ}
    (hI : I v.ambient.tier) (hid : v.id < p.size) (hfuel : p.enoughFuel ≤ v.fuel) :
    ((∃ r, v.run p d = .ok r) ∨ ∃ w st, Within p d v w ∧ Faults p d w st ∧
        (st = .badAccess ∨ st = .outOfMemory) ∧ v.run p d = .error st) ∧
      (∀ {w : Invocation σ}, Within p d v w → ∀ {s : LoadedScript}
        {effectAt : Activation → Option (Except Trap Effect)} {first : Activation × Ambient σ},
        Starts p d w s effectAt first → ∀ (call : Invoke σ) (rest : List (Activation × Ambient σ)),
          List.IsChain (Moves p.size call w.id effectAt) (first :: rest) →
          (∀ state ∈ first :: rest, effectAt state.1 ≠ none) →
          (first :: rest).length ≤ s.script.code.size) ∧
      ∀ {outer : Invocation σ} {inner : List (Invocation σ)},
        List.IsChain (Makes p d) (outer :: inner) →
        (∀ w ∈ outer :: inner, ∃ s effectAt first, Starts p d w s effectAt first) →
        outer.ambient.frames.depth + (outer :: inner).length ≤ maxFrameDepth := by
  refine ⟨?_, ?_, ?_⟩
  · have hsettles : v.Settles p d :=
      settles_of_room hd hforward hquiet (Nat.le_add_left _ _) hI hid hfuel
    obtain hends | ⟨w, st, hwithin, hfaults, hrun⟩ := hsettles
    · exact .inl hends
    · have hIw := invariant_of_within hd hquiet hI hwithin
      exact .inr ⟨w, st, hwithin, hfaults, hfaults.stop hd hIw, hrun⟩
  · intro w hwithin s effectAt first hstart call rest hpath hexecuted
    have hIw := invariant_of_within hd hquiet hI hwithin
    obtain ⟨hverify, hmode, hfit, _⟩ := hstart.mode hd hIw
    have hbound := length_executed_le hmode hverify (hforward.script hstart.script) hfit hpath
      hexecuted
    omega
  · intro outer inner hnested hstarts
    exact nested_le hd.keeps hnested hstarts

/-- A native function, and a script that calls it and then itself without end. -/
def callsItself : Program where
  functions := #[
    .native (Action.native "one" [.set 0 (.int 1)] 1),
    .script (Script.load {
      name := "again"
      code := #[.make .callK 0 0 0, .make .callK 1 0 0]
      konst := { pointers := #[functionAddress 0, functionAddress 1] } })]

/-- The script is called where there is room for two more frames. -/
def callsAgain : Invocation Unit where
  fuel := callsItself.enoughFuel
  id := 1
  args := []
  slots := .fresh []
  memory := {}
  ambient := { tier := (), frames := ⟨List.replicate 254 (.blank { name := "outer" }), 254⟩ }

theorem not_callsVia_callsItself (via : Option Nat) : ¬ callsItself.CallsVia via := by
  rintro ⟨id, n, values, slots, hnative, hcalls⟩
  match id, hnative with
  | 0, hnative =>
    cases hnative
    exact hcalls
  | 1, hnative => cases hnative

/-- Recursion without end is cut off by the frame stack: the run ends in an abort, with at most as
many activations nested as the stack has room for. -/
theorem forward_runs_end_callsItself :
    callsItself.Forward ∧ (∀ via, ¬ callsItself.CallsVia via) ∧
      (∃ r, callsAgain.run callsItself .interpreting = .ok r ∧ r.outcome = .aborted
        { reason := .other, place := some ⟨1, 1⟩, payload := some (.stackOverflow 256) }) ∧
      ∀ {inner : List (Invocation Unit)},
        List.IsChain (Makes callsItself .interpreting) (callsAgain :: inner) →
        (∀ w ∈ callsAgain :: inner, ∃ s effectAt first,
          Starts callsItself .interpreting w s effectAt first) →
        254 + (callsAgain :: inner).length ≤ maxFrameDepth := by
  have hforward : callsItself.Forward := by decide +kernel
  obtain ⟨hends, _, hnested⟩ := forward_runs_end (Dispatcher.interpreting_policy callsItself)
    hforward not_callsVia_callsItself (v := callsAgain) trivial (by decide) (Nat.le_refl _)
  refine ⟨hforward, not_callsVia_callsItself, ?_, hnested⟩
  have houtcome : (callsAgain.run callsItself .interpreting).toOption.map (·.outcome) =
      some (.aborted
        { reason := .other, place := some ⟨1, 1⟩, payload := some (.stackOverflow 256) }) := by
    decide +kernel
  obtain ⟨r, hrun⟩ | ⟨_, st, _, _, _, hrun⟩ := hends
  · rw [hrun] at houtcome
    exact ⟨r, hrun, Option.some.inj houtcome⟩
  · rw [hrun] at houtcome
    cases houtcome

end TierVm
