import TierVm.Proofs.Attribution
import TierVm.Proofs.FrameHistory

/-!
# Aborts leave no trace

In front of every effect of an instruction stands its guard.  This module says which operands trip a
guard, and that nothing has happened then: not to the memory, not to the return slots of any
activation, not to the counters, the log of native calls or the frames of callers.

* Guards.  `Trips` lists the operands with which an operation raises an abort, and
  `Mode.abort_iff` says that these are the only ones, in both modes.
* Runs.  `Comes` are the states that a run comes to with the fuel that it has, and
  `Comes.run_eq` says how the run ends if the next instruction ends the activation.
* Callers.  `Encloses` are the activations that wait for an invocation, at any depth.
  `Encloses.run_eq` is the induction along the chain of calls.
* `Refuses.run_eq` is an invocation that is refused.
* `aborts_leave_no_trace` puts both together.
-/

namespace TierVm

open Interpreter

variable {σ : Type}

/-! ## Guards -/

/-- The index in a register is not below the limit, both taken as unsigned numbers. -/
def OutOfBounds (act : Activation) (i : Instr) (a : Abort) (limit : Except Trap Int32) : Prop :=
  ∃ index bound, act.int i.a.toNat = .ok index ∧ limit = .ok bound ∧
    bound.toUInt32 ≤ index.toUInt32 ∧ a = { reason := .arrayOutOfBounds, arg := index }

/-- The size of an object is negative or too large. -/
def BadSize (a : Abort) (size : Except Trap Int32) : Prop :=
  ∃ n, size = .ok n ∧ (n < 0 ∨ maxAllocSize < n) ∧ a = { reason := .arrayTooLarge, arg := n }

/-- A value is returned into a slot of another class. -/
def Misplaced (act : Activation) (i : Instr) (a : Abort) (value : Except Trap Value) : Prop :=
  ∃ v cls, value = .ok v ∧ act.slots.class? (i.a &&& 127).toNat = some cls ∧ cls ≠ v.regClass ∧
    a = { reason := .other }

/-- The operands of the instruction at hand trip the guard of its operation, and the abort is what
this raises.  Operations that are not listed have no guard. -/
def Trips (s : Script) (act : Activation) (i : Instr) (a : Abort) : Opcode → Prop
  -- A division by zero, in whatever form the operands are given; doubles have two zeros.
  | .intOp op form =>
    (op = .div ∨ op = .divu ∨ op = .mod ∨ op = .modu) ∧
      (∃ l, intInputs s act (.intOp op form) i form = .ok (l, 0)) ∧
      a = { reason := .divisionByZero }
  | .floatOp op form =>
    (op = .div ∨ op = .mod) ∧
      (∃ l r, floatInputs s act i form = .ok (l, r) ∧ (r == 0) = true) ∧
      a = { reason := .divisionByZero }
  -- An access through the null pointer, or a call of it.
  | .load _ _ => act.pointer i.b.toNat = .ok 0 ∧ a = { reason := .readNil }
  | .store _ _ => act.pointer i.a.toNat = .ok 0 ∧ a = { reason := .writeNil }
  | .call => act.pointer i.a.toNat = .ok 0 ∧ a = { reason := .readNil }
  | .callK => konstPointer s i.a.toNat = .ok 0 ∧ a = { reason := .readNil }
  -- An index that is not below its limit, both unsigned.
  | .bound => OutOfBounds act i a (.ok i.bc.toUInt32.toInt32)
  | .boundK => OutOfBounds act i a (konstInt s i.bc.toNat)
  | .boundR => OutOfBounds act i a (act.int i.b.toNat)
  -- A size that is negative or too large.
  | .new => BadSize a (act.int i.b.toNat)
  | .newK => BadSize a (konstInt s i.bc.toNat)
  | .throw =>
    ∃ object, (if i.a.toNat = 0 then act.pointer i.bc.toNat else konstPointer s i.bc.toNat) =
      .ok object ∧ a = .ofError (.thrown object)
  -- A value of another class than the caller's slot.
  | .ret =>
    i.b ≠ nilTag ∧ Misplaced act i a (sourceValue s act (.decode i.b i.c.toNat))
  | .reti => Misplaced act i a (.ok (.int i.bcSigned.toInt32))
  | _ => False

section Guards

variable {s : Script} {act : Activation} {op : Opcode} {i : Instr} {a : Abort}

theorem IntOp.eval_eq_none_iff {op : IntOp} {l r : Int32} :
    op.eval l r = none ↔ (op = .div ∨ op = .divu ∨ op = .mod ∨ op = .modu) ∧ r = 0 := by
  cases op <;> simp [IntOp.eval]

theorem FloatOp.eval_eq_none_iff {op : FloatOp} {l r : Float} :
    op.eval l r = none ↔ (op = .div ∨ op = .mod) ∧ (r == 0) = true := by
  cases op <;> simp [FloatOp.eval]

theorem Memory.objectSize?_eq_none_iff {size : Int32} :
    Memory.objectSize? size = none ↔ size < 0 ∨ maxAllocSize < size := by
  rw [Memory.objectSize?]
  split
  · rename_i hbad
    simp [hbad]
  · rename_i hbad
    simp [hbad]

/-- A value finds no slot of its class just where the slot has another one. -/
theorem give_eq_abort_iff {slot : Nat} {v : Value} {last : Bool} :
    act.give slot v last = .error (.abort a) ↔
      act.slots.class? slot ≠ some v.regClass ∧ a = { reason := .other } := by
  rw [Activation.give]
  split
  · rename_i hclass
    simp [hclass]
  · rename_i hclass
    simp [hclass, abortWith, eq_comm]

theorem checkBound_eq_abort_iff {index limit : Int32} :
    act.checkBound index limit = .error (.abort a) ↔
      limit.toUInt32 ≤ index.toUInt32 ∧ a = { reason := .arrayOutOfBounds, arg := index } := by
  rw [Activation.checkBound]
  split
  · rename_i hle
    simp [hle, abortWith, eq_comm]
  · rename_i hle
    simp [hle]

theorem alloc_eq_abort_iff {index : Nat} {size : Int32} :
    Activation.alloc index size = .error (.abort a) ↔
      (size < 0 ∨ maxAllocSize < size) ∧ a = { reason := .arrayTooLarge, arg := size } := by
  rw [Activation.alloc, ← Memory.objectSize?_eq_none_iff]
  cases Memory.objectSize? size with
  | none => simp [abortWith, eq_comm]
  | some bytes => simp

theorem load_eq_abort_iff {w : Width} {index : Nat} {base : Address} {offset : Int32} :
    act.load w index base offset = .error (.abort a) ↔ base = 0 ∧ a = { reason := .readNil } := by
  rw [Activation.load]
  split
  · rename_i hbase
    simp [hbase, abortWith, eq_comm]
  · rename_i hbase
    cases act.memory.read? (displace base offset) w.size with
    | none => simp [hbase]
    | some bytes => simp [hbase]

theorem store_eq_abort_iff {w : Width} {base : Address} {offset : Int32} {v : Value} :
    Activation.store w base offset v = .error (.abort a) ↔
      base = 0 ∧ a = { reason := .writeNil } := by
  rw [Activation.store]
  split
  · rename_i hbase
    simp [hbase, abortWith, eq_comm]
  · rename_i hbase
    simp [hbase]

/-- An operand that is there does not abort, so what follows it does. -/
theorem bind_eq_abort_iff {α : Type} {m : Except Trap α} {f : α → Except Trap Effect}
    (hm : ∃ x, m = .ok x) :
    m >>= f = .error (.abort a) ↔ ∃ x, m = .ok x ∧ f x = .error (.abort a) := by
  obtain ⟨x, rfl⟩ := hm
  simp [bind, Except.bind]

theorem call_eq_abort_iff (h : StandsAt s act op i) (hop : op = .call ∨ op = .callK)
    {callee : Address} :
    call s act callee i = .error (.abort a) ↔ callee = 0 ∧ a = { reason := .readNil } := by
  obtain ⟨hwanted, _, hfollow, _⟩ := Script.pendingAfter_call hop h.checked.2
  rw [call]
  split
  · rename_i hcallee
    simp [hcallee, abortWith, eq_comm]
  · rename_i hcallee
    rw [if_neg (by omega), resultTargets_ok hfollow]
    simp [hcallee, bind, Except.bind, pure, Except.pure]

/-- A call whose callee is known. -/
theorem callee_eq_abort_iff (h : StandsAt s act op i) (hop : op = .call ∨ op = .callK)
    {callee : Except Trap Address} (hcallee : ∃ x, callee = .ok x) :
    (callee >>= fun p => call s act p i) = .error (.abort a) ↔
      callee = .ok 0 ∧ a = { reason := .readNil } := by
  obtain ⟨p, rfl⟩ := hcallee
  rw [Except.ok.injEq]
  exact call_eq_abort_iff h hop

/-- An operation that may have no value. -/
theorem value_eq_abort_iff {α : Type} {value : Option α} {put : α → Effect} :
    value.elim (abortWith .divisionByZero 0) (fun x => .ok (put x)) = .error (.abort a) ↔
      value = none ∧ a = { reason := .divisionByZero } := by
  cases value with
  | none => simp [abortWith, eq_comm]
  | some x => simp

/-- A return into a slot that the caller asked for aborts just if the classes differ. -/
theorem returned_eq_abort_iff {value : Except Trap Value} (hvalue : ∃ v, value = .ok v)
    {last : Bool} :
    (if (i.a &&& 127).toNat < act.slots.size then
        value >>= fun v => act.give (i.a &&& 127).toNat v last
      else .ok (.give (i.a &&& 127).toNat none last)) = .error (.abort a) ↔
      Misplaced act i a value := by
  by_cases hslot : (i.a &&& 127).toNat < act.slots.size
  · obtain ⟨cls, hcls⟩ := ReturnSlots.class?_eq_some hslot
    rw [if_pos hslot, bind_eq_abort_iff hvalue]
    refine exists_congr fun v => ?_
    rw [give_eq_abort_iff, hcls]
    simp
  · rw [if_neg hslot]
    constructor
    · intro heq
      cases heq
    · rintro ⟨v, cls, -, hclass, -, -⟩
      exact absurd (ReturnSlots.lt_size_of_class? hclass) hslot

/-- A bounds check, once its limit is known. -/
theorem bound_eq_abort_iff {limit : Except Trap Int32} (hindex : ∃ x, act.int i.a.toNat = .ok x)
    (hlimit : ∃ x, limit = .ok x) :
    (act.int i.a.toNat >>= fun index => limit >>= fun bound => act.checkBound index bound) =
      .error (.abort a) ↔ OutOfBounds act i a limit := by
  rw [bind_eq_abort_iff hindex]
  refine exists_congr fun index => ?_
  rw [bind_eq_abort_iff hlimit]
  simp only [checkBound_eq_abort_iff, exists_and_left]

theorem new_eq_abort_iff {size : Except Trap Int32} (hsize : ∃ x, size = .ok x) {index : Nat} :
    (size >>= fun n => Activation.alloc index n) = .error (.abort a) ↔ BadSize a size := by
  rw [bind_eq_abort_iff hsize]
  simp only [alloc_eq_abort_iff]
  rfl

end Guards

section Operations

variable {s : Script} {act : Activation} {op : Opcode} {i : Instr} {a : Abort}

theorem ret_abort_iff (h : StandsAt s act .ret i) :
    execute s act .ret i = .error (.abort a) ↔ Trips s act i a .ret := by
  have hsource : (Need.ofSource (.decode i.b i.c.toNat)).Forall (·.Met s) :=
    ((List.forall_cons _ _ _).1 h.checked.1).2
  have hgiven : giveBack s act .ret i = .error (.abort a) ↔
      Misplaced act i a (sourceValue s act (.decode i.b i.c.toNat)) :=
    returned_eq_abort_iff (sourceValue_ok h.fits hsource)
  show (if i.b = nilTag then .ok .leave else giveBack s act .ret i) = .error (.abort a) ↔ _
  split
  · rename_i hnil
    simp [Trips, hnil]
  · rename_i hsome
    rw [hgiven, Trips, and_iff_right hsome]

theorem load_abort_iff {w : Width} {o : Offset} (h : StandsAt s act (.load w o) i) :
    execute s act (.load w o) i = .error (.abort a) ↔ Trips s act i a (.load w o) := by
  obtain ⟨-, hb, hc⟩ := h.checked.1
  obtain ⟨base, hbase⟩ := h.fits.pointer hb
  obtain ⟨offset, hoffset⟩ := offsetOf_ok h.fits hc
  have hexecute : execute s act (.load w o) i = act.load w i.a.toNat base offset := by
    simp only [execute, hbase, hoffset]
    rfl
  rw [hexecute, load_eq_abort_iff, Trips, hbase, Except.ok.injEq]

theorem store_abort_iff {w : Width} {o : Offset} (h : StandsAt s act (.store w o) i) :
    execute s act (.store w o) i = .error (.abort a) ↔ Trips s act i a (.store w o) := by
  obtain ⟨ha, hb, hc⟩ := h.checked.1
  obtain ⟨base, hbase⟩ := h.fits.pointer ha
  obtain ⟨offset, hoffset⟩ := offsetOf_ok h.fits hc
  obtain ⟨v, hv⟩ := h.fits.value hb
  have hexecute : execute s act (.store w o) i = Activation.store w base offset v := by
    simp only [execute, hbase, hoffset, hv]
    rfl
  rw [hexecute, store_eq_abort_iff, Trips, hbase, Except.ok.injEq]

theorem throw_abort_iff (h : StandsAt s act .throw i) :
    execute s act .throw i = .error (.abort a) ↔ Trips s act i a .throw := by
  have hneeds := h.checked.1
  simp only [needs] at hneeds
  simp only [execute, Trips]
  by_cases hmode : i.a.toNat = 0
  · rw [if_pos hmode] at hneeds
    rw [if_pos hmode, if_pos hmode, bind_eq_abort_iff (h.fits.pointer hneeds)]
    simp [eq_comm]
  · rw [if_neg hmode] at hneeds
    split at hneeds
    · have hobject : ∃ object, konstPointer s i.bc.toNat = .ok object := inRange_getElem? hneeds
      rw [if_neg hmode, if_neg hmode, bind_eq_abort_iff hobject]
      simp [eq_comm]
    · cases hneeds

theorem intOp_abort_iff {o : IntOp} {form : Form} (h : StandsAt s act (.intOp o form) i) :
    execute s act (.intOp o form) i = .error (.abort a) ↔ Trips s act i a (.intOp o form) := by
  have hneeds := (List.forall_cons _ _ _).1 h.checked.1
  obtain ⟨⟨l, r⟩, hinputs⟩ : ∃ lr, intInputs s act (.intOp o form) i form = .ok lr :=
    intInputs_ok h.fits hneeds.2
  have hexecute : execute s act (.intOp o form) i =
      (o.eval l r).elim (abortWith .divisionByZero 0) fun x => .ok (.put i.a.toNat (.int x)) := by
    simp only [execute, hinputs, bind, Except.bind]
    cases o.eval l r <;> rfl
  rw [hexecute, value_eq_abort_iff, IntOp.eval_eq_none_iff, Trips, hinputs, and_assoc]
  simp

theorem floatOp_abort_iff {o : FloatOp} {form : Form} (h : StandsAt s act (.floatOp o form) i) :
    execute s act (.floatOp o form) i = .error (.abort a) ↔ Trips s act i a (.floatOp o form) := by
  have hneeds := (List.forall_cons _ _ _).1 h.checked.1
  have hri : form ≠ .ri := by
    rintro rfl
    cases formEncoded_of_opcode? h.opcode
  obtain ⟨⟨l, r⟩, hinputs⟩ := floatInputs_ok h.fits hri hneeds.2
  have hexecute : execute s act (.floatOp o form) i =
      (o.eval l r).elim (abortWith .divisionByZero 0) fun x => .ok (.put i.a.toNat (.float x)) := by
    simp only [execute, hinputs, bind, Except.bind]
    cases o.eval l r <;> rfl
  rw [hexecute, value_eq_abort_iff, FloatOp.eval_eq_none_iff, Trips, hinputs, and_assoc]
  simp

/-- An instruction raises an abort with the operands that trip its guard, and with no others. -/
theorem execute_abort_iff (h : StandsAt s act op i) :
    execute s act op i = .error (.abort a) ↔ Trips s act i a op := by
  have hneeds := h.checked.1
  -- An operation that has no guard raises no abort at all.
  have hraises : execute s act op i = .error (.abort a) → Raises s act i op a := by
    intro heq
    have hsound := execute_sound h
    rw [heq] at hsound
    exact hsound
  cases op with
  | load w o => exact load_abort_iff h
  | store w o => exact store_abort_iff h
  | call => exact callee_eq_abort_iff h (.inl rfl) (h.fits.pointer hneeds)
  | callK => exact callee_eq_abort_iff h (.inr rfl) (inRange_getElem? hneeds)
  | bound => exact bound_eq_abort_iff (h.fits.int hneeds) ⟨_, rfl⟩
  | boundK => exact bound_eq_abort_iff (h.fits.int hneeds.1) (inRange_getElem? hneeds.2)
  | boundR => exact bound_eq_abort_iff (h.fits.int hneeds.1) (h.fits.int hneeds.2)
  | new => exact new_eq_abort_iff (h.fits.int hneeds.2)
  | newK => exact new_eq_abort_iff (inRange_getElem? hneeds.2)
  | throw => exact throw_abort_iff h
  | intOp o form => exact intOp_abort_iff h
  | floatOp o form => exact floatOp_abort_iff h
  | ret => exact ret_abort_iff h
  | reti => exact returned_eq_abort_iff ⟨_, rfl⟩
  | _ => exact ⟨fun heq => (nomatch hraises heq), fun htrips => htrips.elim⟩

/-- In both modes the instruction at hand raises an abort just if its operands trip its guard. -/
theorem Mode.abort_iff {effectAt : Activation → Option (Except Trap Effect)}
    (hmode : Mode s effectAt) (hverify : s.verify = .ok ()) (hfit : act.Fits s) :
    effectAt act = some (.error (.abort a)) ↔
      ∃ i op, s.code[act.pc]? = some i ∧ i.opcode? = some op ∧ Trips s act i a op := by
  obtain ⟨hpc, hnone⟩ | ⟨op, i, hstands, heffect⟩ := hmode.cases hverify hfit
  · rw [hnone]
    constructor
    · intro heq
      cases heq
    · rintro ⟨i, op, hi, -, -⟩
      have hlt := (Array.getElem?_eq_some_iff.1 hi).1
      omega
  · have hstep : effectAt act = some (.error (.abort a)) ↔
        execute s act op i = .error (.abort a) := by
      have hexecute : step s act i = execute s act op i := by rw [step, hstands.opcode]
      rw [hexecute] at heffect
      rcases heffect with heq | heq
      · rw [heq, Option.some.injEq]
      · rw [heq, Option.some.injEq]
        cases execute s act op i <;> simp [Except.map]
    rw [hstep, execute_abort_iff hstands, hstands.instr]
    constructor
    · intro htrips
      exact ⟨i, op, rfl, hstands.opcode, htrips⟩
    · rintro ⟨i', op', hi, hop, htrips⟩
      cases hi
      rw [hstands.opcode] at hop
      cases hop
      exact htrips

end Operations

/-! ## The end of a run -/

section Steps

variable (functions : Nat) (call : Invoke σ) (self : FunctionId)
  (effectAt : Activation → Option (Except Trap Effect))

/-- A number of instructions takes an activation on. -/
inductive ReachesIn : Nat → Activation × Ambient σ → Activation × Ambient σ → Prop where
  | refl (state : Activation × Ambient σ) : ReachesIn 0 state state
  | head {n : Nat} {first next last : Activation × Ambient σ}
      (hmove : Moves functions call self effectAt first next)
      (hrest : ReachesIn n next last) : ReachesIn (n + 1) first last

variable {functions call self effectAt} {n : Nat} {first last : Activation × Ambient σ}

theorem ReachesIn.reaches (h : ReachesIn functions call self effectAt n first last) :
    Reaches functions call self effectAt first last := by
  induction h with
  | refl => exact .refl
  | head hmove _ ih => exact .head hmove ih

/-- A run goes on from the states on its path with the fuel that is left. -/
theorem ReachesIn.runActivation_eq (h : ReachesIn functions call self effectAt n first last)
    (fuel : Nat) :
    runActivation functions call self effectAt (n + fuel) first.1 first.2 =
      runActivation functions call self effectAt fuel last.1 last.2 := by
  induction h with
  | refl => rw [Nat.zero_add]
  | head hmove _ ih =>
    rw [Nat.add_right_comm, runActivation_succ, turn_of_moves hmove]
    exact ih

/-- A run that stands at the last instruction comes to the result, with any fuel. -/
theorem runActivation_of_ends {r : Result σ} (h : Ends functions call self effectAt last r)
    (fuel : Nat) :
    runActivation functions call self effectAt (fuel + 1) last.1 last.2 = .ok r := by
  rw [runActivation_succ, turn_of_ends h]

end Steps

section Invocations

variable (p : Program) (d : Dispatcher σ)

/-- The activation that an invocation sets up comes to a state, and there is fuel to go on. -/
structure Comes (v : Invocation σ) (fuel : Nat) (s : LoadedScript)
    (effectAt : Activation → Option (Except Trap Effect)) (state : Activation × Ambient σ) :
    Prop where
  fuel_eq : v.fuel = fuel + 1
  reached : ∃ first n, Starts p d v s effectAt first ∧
    ReachesIn p.size (invoke p d fuel) v.id effectAt n first state ∧ n < fuel

/-- The activation of an invocation waits for another one, which it or an activation in between has
called.  The slots are those into which it returns. -/
inductive Encloses : Invocation σ → ReturnSlots → Invocation σ → Prop where
  | direct {v w : Invocation σ} {fuel : Nat} {s : LoadedScript}
      {effectAt : Activation → Option (Except Trap Effect)} {act : Activation} {amb : Ambient σ}
      (hcomes : Comes p d v fuel s effectAt (act, amb))
      (hasks : Asks p.size fuel effectAt (act, amb) w) : Encloses v act.slots w
  | outer {v u w : Invocation σ} {fuel : Nat} {s : LoadedScript}
      {effectAt : Activation → Option (Except Trap Effect)} {act : Activation} {amb : Ambient σ}
      {slots : ReturnSlots} (hcomes : Comes p d v fuel s effectAt (act, amb))
      (hasks : Asks p.size fuel effectAt (act, amb) u) (hinner : Encloses u slots w) :
      Encloses v act.slots w

variable {p d} {v w : Invocation σ} {fuel : Nat} {s : LoadedScript}
  {effectAt : Activation → Option (Except Trap Effect)} {first state : Activation × Ambient σ}

/-- An invocation that sets up an activation is a run of that, with its frame popped. -/
theorem Starts.run_eq (h : Starts p d v s effectAt first) (hfuel : v.fuel = fuel + 1) :
    v.run p d = (runActivation p.size (invoke p d fuel) v.id effectAt fuel first.1 first.2).map
      leaveFrame := by
  obtain ⟨_, id, args, slots, memory, amb⟩ := v
  cases hfuel
  cases h with
  | interpreted hscript hchoice hverdict hpush =>
    simp only [Invocation.values] at hpush
    simp only [Invocation.run, invoke, hscript, hchoice, interpret, hverdict, activate, hpush]
  | compiled hscript hchoice hpush =>
    simp only [Invocation.values] at hpush
    simp only [Invocation.run, invoke, hscript, hchoice, runCompiled, activate, hpush]

section Policy

variable {I : σ → Prop} (hd : d.Policy p I)

include hd

/-- Where the next instruction ends the activation, its result is the result of the run, up to the
frame that is popped. -/
theorem Comes.run_eq (h : Comes p d v fuel s effectAt state) {r : Result σ}
    (hend : Ends p.size (invoke p d fuel) v.id effectAt state r) :
    v.run p d = .ok { r with ambient := { r.ambient with frames := v.ambient.frames } } := by
  obtain ⟨first, n, hstart, hreach, hlt⟩ := h.reached
  obtain ⟨k, rfl⟩ : ∃ k, fuel = n + (k + 1) := ⟨fuel - n - 1, by omega⟩
  rw [hstart.run_eq h.fuel_eq, hreach.runActivation_eq, runActivation_of_ends hend, Except.map,
    leaveFrame_eq hd hstart hreach.reaches hend]

/-- Below the frame of an activation are the frames of its callers. -/
theorem Comes.frames_below (h : Comes p d v fuel s effectAt state) :
    ∃ frame, state.2.frames = v.ambient.frames.link frame := by
  obtain ⟨first, n, hstart, hreach, -⟩ := h.reached
  obtain ⟨amb, frame, frames, hkept, hpush, rfl⟩ := starts_kept hd.keeps hstart
  obtain ⟨_, _, rfl⟩ := FrameStack.push_ok hpush
  have hframes := (reaches_kept hd.keeps (invoke_kept hd.keeps fuel) hreach.reaches).1
  exact ⟨frame, by rw [hframes, hkept.1]⟩

/-- An activation whose callee is aborted hands the abort on.  Its slots are as they were. -/
theorem Comes.run_of_asks {act : Activation} {amb : Ambient σ} {r : Result σ}
    {x : ScriptException} (h : Comes p d v fuel s effectAt (act, amb))
    (hasks : Asks p.size fuel effectAt (act, amb) w) (hrun : w.run p d = .ok r)
    (hx : r.outcome = .aborted x) :
    v.run p d = .ok ⟨.aborted (x.attributeTo ⟨v.id, act.pc⟩), act.slots, r.memory,
      { r.ambient with frames := v.ambient.frames }⟩ := by
  cases hasks with
  | call heffect hperform hcallee =>
    obtain ⟨first, count, cells, rfl, rfl, -, -⟩ := perform_eq_call hperform
    exact h.run_eq hd (.propagates heffect hperform hcallee hrun hx)

/-- All activations around an invocation that is aborted hand the abort on, and nothing else.  The
induction is over the calls from the outermost to the invocation. -/
theorem Encloses.run_eq {mine slots : ReturnSlots} (h : Encloses p d v mine w) {a : Abort}
    {place : Location} {memory : Memory} {amb : Ambient σ}
    (hrun : w.run p d = .ok ⟨.aborted (.ofAbort a (some place)), slots, memory, amb⟩) :
    v.run p d = .ok ⟨.aborted (.ofAbort a (some place)), mine, memory,
      { amb with frames := v.ambient.frames }⟩ := by
  induction h with
  | direct hcomes hasks => exact hcomes.run_of_asks hd hasks hrun rfl
  | outer hcomes hasks _ ih => exact hcomes.run_of_asks hd hasks (ih hrun) rfl

end Policy

/-! ## Refusals -/

/-- A script for whose frame there is no room is refused. -/
theorem activate_refused {functions self fuel : Nat} {call : Invoke σ} {s : Script}
    {args : List Argument} {slots : ReturnSlots} {memory : Memory} {amb : Ambient σ} {e : VmError}
    (h : (amb.frames.push s (args.map (·.value))).1 = .error e) :
    activate functions call self s effectAt fuel args slots memory amb =
      .ok (refusal e slots memory amb) := by
  rw [activate]
  cases hpush : amb.frames.push s (args.map (·.value)) with
  | mk pushed frames =>
    rw [hpush] at h
    cases h
    rw [FrameStack.push_error hpush]
    rfl

/-- An invocation that is refused leaves everything but the counters and the dispatcher. -/
theorem Refuses.run_eq {e : VmError} (h : Refuses p d v s e) (hfuel : v.fuel = fuel + 1) :
    v.run p d = .ok (refusal e v.slots v.memory (d.dispatch v.id s.script v.ambient).2) := by
  obtain ⟨_, id, args, slots, memory, amb⟩ := v
  cases hfuel
  cases h with
  | unverified hscript hchoice hverdict =>
    cases hdispatch : d.dispatch id s.script amb with
    | mk code amb' =>
      rw [hdispatch] at hchoice
      cases hchoice
      simp only [Invocation.run, invoke, hscript, hdispatch, interpret, hverdict]
      rfl
  | noRoom hscript hready hpush =>
    cases hdispatch : d.dispatch id s.script amb with
    | mk code amb' =>
      rw [hdispatch] at hready hpush
      cases code with
      | some code =>
        simp only [Invocation.run, invoke, hscript, hdispatch, runCompiled]
        exact activate_refused hpush
      | none =>
        have hverdict := hready.resolve_left (not_not_intro rfl)
        simp only [Invocation.run, invoke, hscript, hdispatch, interpret, hverdict]
        exact activate_refused hpush

/-- The reasons for which an invocation of a script is refused, with what is reported. -/
def RefusedFor (v : Invocation σ) (s : Script) (e : VmError) : Prop :=
  (∃ defect, s.verify = .error defect ∧ e = .verify defect) ∨
    (maxFrameDepth ≤ v.ambient.frames.depth ∧ e = .stackOverflow v.ambient.frames.depth) ∨
    ∃ i cls, FirstUnfit s.regs v.values i cls ∧ e = misfit i cls

theorem Refuses.refusedFor {e : VmError} (h : Refuses p d v s e) : RefusedFor v s.script e := by
  cases h with
  | unverified hscript hchoice hverdict =>
    rw [s.verdict_eq] at hverdict
    exact .inl ⟨_, hverdict, rfl⟩
  | noRoom hscript hready hpush =>
    cases hpushed : v.ambient.frames.push s.script v.values with
    | mk pushed frames =>
      obtain rfl : pushed = .error e := (congrArg Prod.fst hpushed).symm.trans hpush
      obtain ⟨-, hfull | ⟨-, hunfit⟩⟩ := FrameStack.push_error_cases hpushed
      · exact .inr (.inl hfull)
      · exact .inr (.inr hunfit)

/-- An invocation is refused if its script has a defect, or there is no room for its frame or for
its arguments. -/
theorem exists_refuses {I : σ → Prop} (hd : d.Policy p I) (hI : I v.ambient.tier)
    (hscript : p.functions[v.id]? = some (.script s))
    (hbad : s.script.verify ≠ .ok () ∨ maxFrameDepth ≤ v.ambient.frames.depth ∨
      ¬ ArgsFit s.script.regs v.values) : ∃ e, Refuses p d v s e := by
  by_cases hverify : s.script.verify = .ok ()
  · have hnot : ¬ ∃ frame, (v.ambient.frames.push s.script v.values).1 = .ok frame := by
      rw [FrameStack.push_ok_iff]
      rintro ⟨hroom, hfits⟩
      obtain hdefect | hfull | hunfit := hbad
      · exact hdefect hverify
      · omega
      · exact hunfit hfits
    cases hpush : (v.ambient.frames.push s.script v.values).1 with
    | ok frame => exact absurd ⟨frame, hpush⟩ hnot
    | error e => exact ⟨e, .noRoom hscript (.inr (s.verdict_eq.trans hverify)) hpush⟩
  · cases hverdict : s.verdict with
    | ok u => exact absurd (s.verdict_eq.symm.trans hverdict) hverify
    | error defect =>
      refine ⟨_, .unverified hscript ?_ hverdict⟩
      cases hchoice : (d.dispatch v.id s.script v.ambient).1 with
      | none => rfl
      | some code => exact absurd (hd.lowered hI hscript hchoice).1 hverify

end Invocations

/-! ## All aborts -/

/-- What an instruction that raises an abort leaves of its activation and of everything around. -/
structure NoTrace (p : Program) (d : Dispatcher σ) (w : Invocation σ) (fuel : Nat)
    (effectAt : Activation → Option (Except Trap Effect)) (act : Activation) (amb : Ambient σ)
    (a : Abort) : Prop where
  /-- The activation ends with the slots, the memory, the counters, the log and the frames that it
  had in front of the instruction. -/
  ends : ∀ n, runActivation p.size (invoke p d fuel) w.id effectAt (n + 1) act amb =
    .ok ⟨.aborted (.ofAbort a (some ⟨w.id, act.pc⟩)), act.slots, act.memory, amb⟩
  /-- Below its frame are those of its callers. -/
  below : ∃ frame, amb.frames = w.ambient.frames.link frame
  /-- The invocation ends with the same, its frame popped. -/
  invocation : w.run p d = .ok ⟨.aborted (.ofAbort a (some ⟨w.id, act.pc⟩)), act.slots, act.memory,
    { amb with frames := w.ambient.frames }⟩
  /-- The activations that wait for it end so too, each with the slots that it had. -/
  enclosing : ∀ {v : Invocation σ} {slots : ReturnSlots}, Encloses p d v slots w →
    v.run p d = .ok ⟨.aborted (.ofAbort a (some ⟨w.id, act.pc⟩)), slots, act.memory,
      { amb with frames := v.ambient.frames }⟩
  /-- A native function that waits for it goes on with the slots that it had and the same memory. -/
  native : ∀ {n : Nat} {args : List Argument} {via : Option Nat} {callee : FunctionId}
    {passed : List Passed} {classes : List RegClass}
    {next : Except ScriptException (List Value) → HostProgram} {slots : ReturnSlots}
    {memory : Memory} {outside : Ambient σ} {values : List Value},
    passedValues args slots passed = some values →
    w = ⟨n, callee, values.map ({ value := · }), .fresh classes, memory,
      d.outgoing via outside⟩ →
    HostMoves d (invoke p d n) args ⟨.call via callee passed classes next, slots, memory, outside⟩
      ⟨next (.error (.ofAbort a (some ⟨w.id, act.pc⟩))), slots, act.memory,
        d.returning via outside { amb with frames := w.ambient.frames }⟩

/-- An instruction that raises an abort leaves no trace. -/
theorem noTrace_of_comes {p : Program} {d : Dispatcher σ} {I : σ → Prop} (hd : d.Policy p I)
    {w : Invocation σ} {fuel : Nat} {s : LoadedScript}
    {effectAt : Activation → Option (Except Trap Effect)} {act : Activation} {amb : Ambient σ}
    {a : Abort} (h : Comes p d w fuel s effectAt (act, amb))
    (habort : effectAt act = some (.error (.abort a))) : NoTrace p d w fuel effectAt act amb a := by
  have hend : Ends p.size (invoke p d fuel) w.id effectAt (act, amb) _ := .raises habort
  have hrun : w.run p d = .ok ⟨.aborted (.ofAbort a (some ⟨w.id, act.pc⟩)), act.slots, act.memory,
    { amb with frames := w.ambient.frames }⟩ := h.run_eq hd hend
  refine ⟨runActivation_of_ends hend, h.frames_below hd, hrun, ?_, ?_⟩
  · intro v slots hv
    have houter := hv.run_eq hd hrun
    exact houter
  · rintro n args via callee passed classes next slots memory outside values hpassed rfl
    exact .call hpassed hrun

/-- Aborts leave no trace.

At every state that a run of a script comes to, in either mode, the next instruction raises an abort
just if its operands trip its guard.  The memory with its heap and its buffers, the return slots of
this activation and of those around it, the counters, the log of native calls and the frames of the
callers are then what they were in front of the instruction.

An invocation of a script is refused if the script has a defect, the stack is full, or the arguments
find no registers.  It then leaves the memory, the slots, the frames and the log. -/
theorem aborts_leave_no_trace {p : Program} {d : Dispatcher σ} {I : σ → Prop} (hd : d.Policy p I) :
    (∀ {w : Invocation σ} {fuel : Nat} {s : LoadedScript}
        {effectAt : Activation → Option (Except Trap Effect)} {act : Activation} {amb : Ambient σ}
        {a : Abort}, I w.ambient.tier → Comes p d w fuel s effectAt (act, amb) →
      (effectAt act = some (.error (.abort a)) ↔
        ∃ i op, s.script.code[act.pc]? = some i ∧ i.opcode? = some op ∧
          Trips s.script act i a op) ∧
      (effectAt act = some (.error (.abort a)) → NoTrace p d w fuel effectAt act amb a)) ∧
    ∀ {v : Invocation σ} {fuel : Nat} {s : LoadedScript}, I v.ambient.tier → v.fuel = fuel + 1 →
      p.functions[v.id]? = some (.script s) →
      (s.script.verify ≠ .ok () ∨ maxFrameDepth ≤ v.ambient.frames.depth ∨
        ¬ ArgsFit s.script.regs v.values) →
      ∃ e r, v.run p d = .ok r ∧ RefusedFor v s.script e ∧
        r.outcome = .aborted (.ofAbort (.ofError e) none) ∧ r.slots = v.slots ∧
        r.memory = v.memory ∧ r.ambient.frames = v.ambient.frames ∧
        r.ambient.log = v.ambient.log := by
  refine ⟨?_, ?_⟩
  · intro w fuel s effectAt act amb a hI hcomes
    refine ⟨?_, noTrace_of_comes hd hcomes⟩
    obtain ⟨first, n, hstart, hreach, -⟩ := hcomes.reached
    obtain ⟨hverify, hmode, hfit, -⟩ := hstart.mode hd hI
    exact hmode.abort_iff hverify (fits_of_reaches hmode hverify hfit hreach.reaches)
  · intro v fuel s hI hfuel hscript hbad
    obtain ⟨e, hrefuses⟩ := exists_refuses hd hI hscript hbad
    exact ⟨e, _, hrefuses.run_eq hfuel, hrefuses.refusedFor, rfl, rfl, rfl, rfl, rfl⟩

/-- A script that divides its register by itself. -/
def dividesScript : Script where
  name := "divides"
  code := #[.make (.intOp .div .rr) 0 0 0]
  regs := { int := 1 }

/-- A script that calls it. -/
def callsDivides : Script where
  name := "calls"
  code := #[.make .callK 0 0 0]
  konst := { pointers := #[functionAddress 0] }

/-- The two scripts. -/
def dividesInside : Program where
  functions := #[.script (Script.load dividesScript), .script (Script.load callsDivides)]

/-- The calling script is called for an integer, after some native calls. -/
def asksDivides (args : List Argument) : Invocation Unit where
  fuel := 4
  id := 1
  args := args
  slots := .fresh [.int]
  memory := {}
  ambient := { log := #[⟨5, [.int 1], 0⟩], tier := () }

/-- The call that the calling script makes. -/
def asksInside : Invocation Unit where
  fuel := 3
  id := 0
  args := []
  slots := .fresh []
  memory := {}
  ambient := { (asksDivides []).ambient with frames := .link {} (.blank callsDivides) }

/-- A script that is called without arguments comes to its first instruction. -/
theorem comes_first {p : Program} {v : Invocation Unit} {s : LoadedScript} {fuel : Nat}
    (hfuel : v.fuel = fuel + 2) (hscript : p.functions[v.id]? = some (.script s))
    (hverdict : s.verdict = .ok ()) (hargs : v.values = [])
    (hroom : v.ambient.frames.depth < maxFrameDepth) :
    Comes p .interpreting v (fuel + 1) s (interpretAt s.script)
      (.start (.blank s.script) v.slots v.memory,
        { v.ambient.countCall v.id with frames := v.ambient.frames.link (.blank s.script) }) := by
  have hpush : v.ambient.frames.push s.script v.values =
      (.ok (.blank s.script), v.ambient.frames.link (.blank s.script)) := by
    rw [hargs, FrameStack.push, if_neg (by omega)]
    rfl
  exact ⟨hfuel, _, 0, .interpreted hscript rfl hverdict hpush, .refl _, by omega⟩

/-- The register is zero, and the division aborts both scripts and nothing else.  With an argument
for which it has no register, the calling script is refused. -/
theorem aborts_leave_no_trace_dividesInside :
    (∃ r, (asksDivides []).run dividesInside .interpreting = .ok r ∧
      r.outcome = .aborted { reason := .divisionByZero, place := some ⟨0, 0⟩ } ∧
      r.slots = (asksDivides []).slots ∧ r.ambient.log = (asksDivides []).ambient.log) ∧
    ∃ e r, (asksDivides [⟨.int 3, none⟩]).run dividesInside .interpreting = .ok r ∧
      RefusedFor (asksDivides [⟨.int 3, none⟩]) callsDivides e ∧
      r.slots = (asksDivides [⟨.int 3, none⟩]).slots := by
  obtain ⟨haborts, hrefused⟩ :=
    aborts_leave_no_trace (Dispatcher.interpreting_policy dividesInside)
  have hinner : (Script.load dividesScript).verdict = .ok () := by decide +kernel
  have houter : (Script.load callsDivides).verdict = .ok () := by decide +kernel
  refine ⟨?_, ?_⟩
  · have hdiv : (Instr.make (.intOp .div .rr) 0 0 0).opcode? = some (.intOp .div .rr) := by
      decide +kernel
    have hcall : (Instr.make .callK 0 0 0).opcode? = some .callK := by decide +kernel
    have hcalls : ∀ frame slots memory, interpretAt callsDivides (.start frame slots memory) =
        some (.ok (.call (functionAddress 0) 0 0 [] .registers)) := by
      intro frame slots memory
      show some (step callsDivides _ (.make .callK 0 0 0)) = _
      rw [step, hcall]
      rfl
    have hencloses : Encloses dividesInside .interpreting (asksDivides []) (asksDivides []).slots
        asksInside :=
      .direct (comes_first (v := asksDivides []) rfl rfl houter rfl (by decide))
        (.call (hcalls _ _ _) rfl rfl)
    obtain ⟨htrips, hnotrace⟩ :=
      haborts trivial (comes_first (v := asksInside) rfl rfl hinner rfl (by decide))
    have hraised := htrips.2 ⟨_, _, rfl, hdiv, .inl rfl, ⟨_, rfl⟩, rfl⟩
    exact ⟨_, (hnotrace hraised).enclosing hencloses, rfl, rfl, rfl⟩
  · obtain ⟨e, r, hrun, hfor, -, hslots, -⟩ := hrefused (v := asksDivides [⟨.int 3, none⟩])
      (s := Script.load callsDivides) trivial rfl rfl (.inr (.inr (by decide)))
    exact ⟨e, r, hrun, hfor, hslots⟩

end TierVm
