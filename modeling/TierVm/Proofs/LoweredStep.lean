import Mathlib.Algebra.GroupWithZero.Nat
import TierVm.Exec.Lowering
import TierVm.Proofs.StepSound

/-!
# Lowered operations against instructions

Lowering replaces an instruction by an operation in which constants, jump targets and parameter
slots are worked out.  This module shows that nothing else changes.

* `Effect.lowered` is what compiled code makes of the effect of an instruction: it does not tell
  backward jumps apart, and it receives the results of a call in scratch cells.
* `lowerOp_agrees`: the operation that an instruction is lowered to, executed where the instruction
  stands, has the lowered effect of the instruction, or its abort.
* `ReturnSlots.signed_size`: machine code counts slots in signed words, which makes no difference
  below `2 ^ 31`.
* `Lowering.countsFrom` are the counts of pending parameters that the pass of lowering goes
  through.  For an accepted script they are the counts of verification (`countsFrom_eq`), and
  `lowerCode_at` puts the pieces together for the operation at each index.
-/

namespace TierVm

open Lowering Lowered

/-- The effect of compiled code. -/
def Effect.lowered : Effect → Effect
  | .goto pc _ => .goto pc false
  | .call callee first count targets _ => .call callee first count targets .scratch
  | e => e

/-- Soundness of an effect does not depend on what lowering changes. -/
theorem Effect.sound_lowered {s : Script} {act : Activation} {e : Effect} :
    e.lowered.Sound s act ↔ e.Sound s act := by
  cases e <;> rfl

/-- A lowered operation has the lowered outcome of an instruction. -/
def Agrees (lowered interpreted : Except Trap Effect) : Prop :=
  lowered = interpreted.map Effect.lowered

/-- Operands with the same value, and then the same outcome. -/
theorem Agrees.bind {α : Type} {m m' : Except Trap α} {f f' : α → Except Trap Effect}
    (hm : m = m') (hf : ∀ x, Agrees (f x) (f' x)) : Agrees (m >>= f) (m' >>= f') := by
  subst hm
  cases m with
  | error t => rfl
  | ok x => exact hf x

/-! ## Operands -/

section Operands

variable {s : Script} {act : Activation} {cls : RegClass} {k j : Nat}

theorem useReg_ok (h : useReg s cls k = .ok j) : j = k := by
  rw [useReg] at h
  split at h
  · cases h
    rfl
  · cases h

theorem regArg_ok {α : Type} {x : Arg α} (h : regArg s cls k = .ok x) : x = .reg k := by
  rw [regArg, map_eq_ok_iff] at h
  obtain ⟨j, hj, rfl⟩ := h
  rw [useReg_ok hj]

theorem immArg_ok {α : Type} {pool : Array α} {x : Arg α} (h : immArg s pool k = .ok x) :
    ∃ v, inRange pool[k]? = .ok v ∧ x = .imm v := by
  rw [immArg, map_eq_ok_iff] at h
  obtain ⟨v, hv, rfl⟩ := h
  rw [useAt] at hv
  split at hv
  · rename_i hpool
    cases hv
    exact ⟨v, by rw [hpool]; rfl, rfl⟩
  · cases hv

/-- Lowering goes on with the register. -/
theorem useReg_bind {β : Type} {y : β} {f : Nat → Except CompileError β}
    (h : useReg s cls k >>= f = .ok y) : f k = .ok y := by
  obtain ⟨j, hj, h⟩ := bind_eq_ok_iff.1 h
  rw [useReg_ok hj] at h
  exact h

/-- Lowering goes on with the register as an operand. -/
theorem regArg_bind {α β : Type} {y : β} {f : Arg α → Except CompileError β}
    (h : regArg s cls k >>= f = .ok y) : f (.reg k) = .ok y := by
  obtain ⟨x, hx, h⟩ := bind_eq_ok_iff.1 h
  rw [regArg_ok hx] at h
  exact h

/-- Lowering goes on with the value of the constant. -/
theorem immArg_bind {α β : Type} {pool : Array α} {y : β} {f : Arg α → Except CompileError β}
    (h : immArg s pool k >>= f = .ok y) :
    ∃ v, .ok v = inRange pool[k]? ∧ f (.imm v) = .ok y := by
  obtain ⟨x, hx, h⟩ := bind_eq_ok_iff.1 h
  obtain ⟨v, hv, rfl⟩ := immArg_ok hx
  exact ⟨v, hv.symm, h⟩

theorem offsetArg_ok {i : Instr} {o : Offset} {x : Arg Int32} (h : offsetArg s i o = .ok x) :
    intArg act x = Interpreter.offsetOf s act i o := by
  cases o with
  | register =>
    rw [regArg_ok h]
    rfl
  | konst =>
    obtain ⟨v, hv, rfl⟩ := immArg_ok h
    exact hv.symm

theorem comparedString_lowered {isKonst : Bool} {b : UInt8} {x : Arg String}
    (h : comparedString s isKonst b = .ok x) :
    stringArg act x = Interpreter.comparedString s act isKonst b := by
  cases isKonst with
  | true =>
    obtain ⟨v, hv, rfl⟩ := immArg_ok h
    exact hv.symm
  | false =>
    rw [regArg_ok h]
    rfl

theorem inRange_map {α β : Type} (x : Option α) (f : α → β) :
    inRange (x.map f) = (inRange x).map f := by
  cases x <;> rfl

/-- The value of a tagged operand. -/
theorem operand_eval {src : Source} {v : Operand} (h : operand s src = .ok v) :
    v.eval act = Interpreter.sourceValue s act src := by
  cases src with
  | nil =>
    cases h
    rfl
  | reg cls k =>
    cases cls <;>
    · obtain ⟨x, hx, rfl⟩ := map_eq_ok_iff.1 h
      rw [regArg_ok hx]
      exact (inRange_map _ _).symm
  | konst cls k =>
    cases cls <;>
    · obtain ⟨x, hx, rfl⟩ := map_eq_ok_iff.1 h
      obtain ⟨v, hv, rfl⟩ := immArg_ok hx
      simp only [Interpreter.sourceValue, ConstantPool.get?, inRange_map, hv]
      rfl

/-- The parameter that a tagged operand stands for: only a string register is passed by
reference. -/
theorem operand_param {src : Source} {v : Operand} (h : operand s src = .ok v) :
    v.param act = Interpreter.paramOf s act src := by
  have heval := @operand_eval s act src v h
  cases src with
  | nil =>
    cases h
    rfl
  | reg cls k =>
    cases cls with
    | string =>
      obtain ⟨x, hx, rfl⟩ := map_eq_ok_iff.1 h
      rw [regArg_ok hx]
      rfl
    | int | float | pointer =>
      obtain ⟨x, hx, rfl⟩ := map_eq_ok_iff.1 h
      exact congrArg (Except.map Param.value) heval
  | konst cls k =>
    cases cls with
    | string =>
      obtain ⟨x, hx, rfl⟩ := map_eq_ok_iff.1 h
      obtain ⟨v, hv, rfl⟩ := immArg_ok hx
      exact congrArg (Except.map Param.value) heval
    | int | float | pointer =>
      obtain ⟨x, hx, rfl⟩ := map_eq_ok_iff.1 h
      exact congrArg (Except.map Param.value) heval

/-- Two operands with the same values as a pair. -/
theorem Agrees.pair {α β : Type} {m : Except Trap α} {n : Except Trap β}
    {q : Except Trap (α × β)} {f : α → β → Except Trap Effect} {f' : α × β → Except Trap Effect}
    (hq : q = do return (← m, ← n)) (hf : ∀ x y, Agrees (f x y) (f' (x, y))) :
    Agrees (m >>= fun x => n >>= fun y => f x y) (q >>= f') := by
  subst hq
  cases m with
  | error t => rfl
  | ok x =>
    cases n with
    | error t => rfl
    | ok y => exact hf x y

variable {i : Instr} {form : Form}

/-- The inputs of a binary operation, by how registers and constants are read. -/
def formInputs {α : Type} (reg konst : Nat → Except Trap α) (i : Instr) (form : Form)
    (immediate : Option α) : Except Trap (α × α) :=
  match form, immediate with
  | .rk, _ => do return (← reg i.b.toNat, ← konst i.c.toNat)
  | .kr, _ => do return (← konst i.b.toNat, ← reg i.c.toNat)
  | .ri, some x => do return (← reg i.b.toNat, x)
  | _, _ => do return (← reg i.b.toNat, ← reg i.c.toNat)

/-- The operands of a binary operation evaluate to its inputs. -/
theorem binary_inputs {α : Type} {pool : Array α} {immediate : Option α} {l r : Arg α}
    {eval : Arg α → Except Trap α} {reg : Nat → Except Trap α} (hreg : ∀ k, eval (.reg k) = reg k)
    (himm : ∀ v, eval (.imm v) = .ok v) (h : binary s cls pool i form immediate = .ok (l, r)) :
    (do return (← eval l, ← eval r)) =
      formInputs reg (fun k => inRange pool[k]?) i form immediate := by
  have hkonst : ∀ {k x}, immArg s pool k = .ok x → eval x = inRange pool[k]? := by
    intro k x hx
    obtain ⟨v, hv, rfl⟩ := immArg_ok hx
    rw [himm, hv]
  have hregs : ∀ {k x}, regArg s cls k = .ok x → eval x = reg k := by
    intro k x hx
    rw [regArg_ok hx, hreg]
  have hboth : ∀ {m n : Except CompileError (Arg α)} {m' n' : Except Trap α},
      (∀ {x}, m = .ok x → eval x = m') → (∀ {x}, n = .ok x → eval x = n') →
      (do return (← m, ← n)) = (.ok (l, r) : Except CompileError (Arg α × Arg α)) →
      (do return (← eval l, ← eval r)) = (do return (← m', ← n')) := by
    intro m n m' n' hm hn h
    obtain ⟨x, hx, h⟩ := bind_eq_ok_iff.1 h
    obtain ⟨y, hy, h⟩ := bind_eq_ok_iff.1 h
    cases h
    rw [hm hx, hn hy]
  cases form with
  | rr => exact hboth hregs hregs h
  | rk => exact hboth hregs hkonst h
  | kr => exact hboth hkonst hregs h
  | ri =>
    cases immediate with
    | none => exact hboth hregs hregs h
    | some v =>
      obtain ⟨x, hx, h⟩ := bind_eq_ok_iff.1 h
      cases h
      rw [hregs hx, himm]
      rfl

theorem intInputs_lowered {op : Opcode} {l r : Arg Int32}
    (h : binary s .int s.konst.ints i form (some (op.immediate i.c)) = .ok (l, r)) :
    Interpreter.intInputs s act op i form = (do return (← intArg act l, ← intArg act r)) := by
  rw [@binary_inputs s _ i form _ _ _ l r (intArg act) act.int (fun _ => rfl) (fun _ => rfl) h]
  cases form <;> rfl

theorem intCompared_lowered {l r : Arg Int32}
    (h : binary s .int s.konst.ints i form none = .ok (l, r)) :
    Interpreter.intCompared s act i form = (do return (← intArg act l, ← intArg act r)) := by
  rw [@binary_inputs s _ i form _ _ _ l r (intArg act) act.int (fun _ => rfl) (fun _ => rfl) h]
  cases form <;> rfl

theorem floatInputs_lowered {l r : Arg Float}
    (h : binary s .float s.konst.floats i form none = .ok (l, r)) :
    Interpreter.floatInputs s act i form = (do return (← floatArg act l, ← floatArg act r)) := by
  rw [@binary_inputs s _ i form _ _ _ l r (floatArg act) act.float (fun _ => rfl) (fun _ => rfl) h]
  cases form <;> rfl

end Operands

/-! ## Arithmetic, branches and calls -/

/-- Dividing by the safe divisor is dividing: it differs only where the quotient wraps. -/
theorem div_safeDivisor (l r : Int32) : l / safeDivisor l r = l / r := by
  rw [safeDivisor]
  split
  · rename_i h
    obtain ⟨rfl, rfl⟩ := h
    decide
  · rfl

theorem mod_safeDivisor (l r : Int32) : l % safeDivisor l r = l % r := by
  rw [safeDivisor]
  split
  · rename_i h
    obtain ⟨rfl, rfl⟩ := h
    decide
  · rfl

/-- Arithmetic in line has the values of the interpreter's. -/
theorem inlineInt_eq (op : IntOp) (l r : Int32) : inlineInt op l r = op.eval l r := by
  cases op with
  | div => simp only [inlineInt, IntOp.eval, div_safeDivisor]
  | mod => simp only [inlineInt, IntOp.eval, mod_safeDivisor]
  | _ => rfl

/-! The operations that both ways of execution share come to nothing that lowering changes. -/

section Shared

variable (act : Activation)

theorem checkBound_agrees (index limit : Int32) :
    Agrees (act.checkBound index limit) (act.checkBound index limit) := by
  unfold Activation.checkBound
  split <;> rfl

theorem give_agrees (slot : Nat) (v : Value) (last : Bool) :
    Agrees (act.give slot v last) (act.give slot v last) := by
  unfold Activation.give
  split <;> rfl

theorem load_agrees (w : Width) (index : Nat) (base : Address) (offset : Int32) :
    Agrees (act.load w index base offset) (act.load w index base offset) := by
  unfold Activation.load
  split
  · rfl
  · split <;> rfl

theorem store_agrees (w : Width) (base : Address) (offset : Int32) (v : Value) :
    Agrees (Activation.store w base offset v) (Activation.store w base offset v) := by
  unfold Activation.store
  split <;> rfl

theorem alloc_agrees (index : Nat) (size : Int32) :
    Agrees (Activation.alloc index size) (Activation.alloc index size) := by
  unfold Activation.alloc
  split <;> rfl

theorem convert_agrees (kind : Cast) (dst src : Nat) :
    Agrees (act.convert kind dst src) (act.convert kind dst src) := by
  cases kind <;> exact .bind rfl fun _ => rfl

end Shared

section Control

variable {s : Script} {act : Activation} {i : Instr}

/-- A branch that skips the next instruction when a value passes a test. -/
theorem branch_agrees {test : Test} {m : Except Trap Int32} {p : Int32 → Bool}
    (htest : test.eval act = (do return p (← m))) :
    Agrees (Lowered.step act (.branch test (skipLabel s act.pc) (act.pc + 1)))
      (m >>= fun x => pure (Interpreter.skipWhen s act (p x))) := by
  rw [Lowered.step, htest]
  cases m with
  | error t => rfl
  | ok x =>
    show Agrees (pure (.goto (if p x then skipLabel s act.pc else act.pc + 1) false)) _
    cases hp : p x <;> simp [Agrees, Interpreter.skipWhen, hp] <;> rfl

/-- A branch that skips the next instruction unless a comparison comes out as expected. -/
theorem compareSkip_agrees {α : Type} {test : Test} {m n : Except Trap α} {cmp : α → α → Bool}
    (htest : test.eval act = (do return cmp (← m) (← n))) :
    Agrees (Lowered.step act (compareSkip s act.pc i test))
      (m >>= fun x => n >>= fun y =>
        pure (Interpreter.skipWhen s act (cmp x y != Interpreter.expected i))) := by
  unfold compareSkip Interpreter.expected
  cases m with
  | error t =>
    split <;>
    · rw [Lowered.step, htest]
      rfl
  | ok x =>
    cases n with
    | error t =>
      split <;>
      · rw [Lowered.step, htest]
        rfl
    | ok y =>
      split <;>
      · rename_i hcheck
        rw [Lowered.step, htest]
        show Agrees (pure (.goto (if cmp x y then _ else _) false))
          (pure (Interpreter.skipWhen s act (cmp x y != !clearIn checkBit i.a)))
        cases cmp x y <;> simp [hcheck] <;> rfl

/-- The same for operands that the interpreter reads as a pair. -/
theorem compareSkip_pair_agrees {α : Type} {test : Test} {m n : Except Trap α}
    {cmp : α → α → Bool} (htest : test.eval act = (do return cmp (← m) (← n)))
    {q : Except Trap (α × α)} (hq : q = do return (← m, ← n)) :
    Agrees (Lowered.step act (compareSkip s act.pc i test))
      (q >>= fun p =>
        pure (Interpreter.skipWhen s act (cmp p.1 p.2 != Interpreter.expected i))) := by
  have hagree := @compareSkip_agrees s act i α test m n cmp htest
  subst hq
  cases m with
  | error t => exact hagree
  | ok x =>
    cases n with
    | error t => exact hagree
    | ok y => exact hagree

/-- A return of a value. -/
theorem returnOp_agrees {v : Operand} {value : Except Trap Value} (hvalue : v.eval act = value) :
    Agrees (Lowered.step act (returnOp i v))
      (if (i.a &&& 127).toNat < act.slots.size then
        value >>= fun v => act.give (i.a &&& 127).toNat v (!clearIn finalBit i.a)
      else .ok (.give (i.a &&& 127).toNat none (!clearIn finalBit i.a))) := by
  simp only [returnOp, Lowered.step]
  split
  · exact .bind hvalue fun v => give_agrees act _ v _
  · rfl

/-- The results of an accepted call are registers, so that lowering finds its targets. -/
theorem loweredTargets_ok (hs : s.Accepted) {pc count : Nat}
    (h : s.resultsFollow pc count = true) :
    (List.range count).mapM (fun k => Lowering.resultTarget s (pc + 1 + k)) =
      .ok (s.targetsAt pc count) := by
  apply mapM_eq_pure
  intro k hk
  obtain ⟨r, hr, _⟩ := Script.result_of_resultsFollow h (List.mem_range.1 hk)
  have hlt := hs.targetsAt_lt h _ (List.mem_map.2 ⟨k, hk, rfl⟩)
  simp only [Array.getD_eq_getD_getElem?, hr, Option.getD_some] at hlt ⊢
  have huse : useAt s s.code (pc + 1 + k) = .ok r := by
    rw [useAt, hr]
  have hreg : useReg s (.ofTag r.b) r.c.toNat = .ok r.c.toNat := if_pos hlt
  rw [Lowering.resultTarget, huse]
  show (useReg s (.ofTag r.b) r.c.toNat >>= fun index => pure (Target.mk (.ofTag r.b) index)) = _
  rw [hreg]
  rfl

/-- A lowered call takes the same parameters and names the same targets. -/
theorem callOp_agrees {op : Opcode} (h : StandsAt s act op i) (hop : op = .call ∨ op = .callK)
    {arg : Arg Address} {o : Op} (ho : callOp s act.pc act.numParam i arg = .ok o)
    {callee : Except Trap Address} (hcallee : pointerArg act arg = callee) :
    Agrees (Lowered.step act o)
      (callee >>= fun callee => Interpreter.call s act callee i) := by
  obtain ⟨hwanted, hreturns, hfollow, _⟩ := Script.pendingAfter_call hop h.checked.2
  rw [callOp, if_neg (by omega), if_neg (by omega), loweredTargets_ok h.accepted hfollow] at ho
  cases ho
  refine .bind hcallee fun callee => ?_
  unfold Lowered.call Interpreter.call
  split
  · rfl
  · rw [if_neg (by omega), resultTargets_ok hfollow]
    rfl

/-- The slot of a lowered parameter is the next one. -/
theorem nextParam_ok {pc pending slot : Nat} (h : nextParam s pc pending = .ok slot) :
    slot = pending ∧ pending < s.maxParam.toNat := by
  rw [nextParam] at h
  split at h
  · cases h
    exact ⟨rfl, by assumption⟩
  · cases h

theorem pushParam_lowered (hfit : act.Fits s) (hroom : act.numParam < s.maxParam.toNat)
    (p : Param) : Interpreter.pushParam s act p = .ok (.param act.numParam p) := by
  rw [Interpreter.pushParam, if_neg]
  rw [hfit.size_params]
  omega

end Control

/-! ## Counts in machine words -/

/-- Machine code holds the number of its caller's slots in a signed word of 32 bits.  With fewer
than `2 ^ 31` slots its comparisons come out as in natural numbers: whether the slot of a return is
there, and whether a last return has to count fewer slots than its own number says. -/
theorem ReturnSlots.signed_size {slots : ReturnSlots} {slot : Nat} (hslot : slot < 128)
    (hsize : slots.size < 2 ^ 31) :
    (Int32.ofNat slot < Int32.ofNat slots.size ↔ slot < slots.size) ∧
      (Int32.ofNat slots.size < Int32.ofNat (slot + 1) ↔ slots.size < slot + 1) := by
  have hslot' : slot + 1 < 2 ^ 31 := by omega
  exact ⟨Int32.ofNat_lt_iff_lt (by omega) hsize, Int32.ofNat_lt_iff_lt hsize hslot'⟩

/-! ## All operations -/

/-- The operation that an instruction is lowered to has the instruction's effect. -/
theorem lowerOp_agrees {s : Script} {act : Activation} {op : Opcode} {i : Instr} {o : Op}
    (h : StandsAt s act op i) (ho : lowerOp s act.pc act.numParam op i = .ok o) :
    Agrees (Lowered.step act o) (Interpreter.execute s act op i) := by
  cases op with
  | nop | result =>
    cases ho
    rfl
  | jmp =>
    have hneed : 0 ≤ jumpTarget act.pc i ∧ jumpTarget act.pc i ≤ (s.code.size : Int) := h.checked.1
    have hlabel : label s (jumpTarget act.pc i) = .ok (jumpTarget act.pc i).toNat := if_pos hneed
    obtain ⟨target, htarget, ho⟩ := bind_eq_ok_iff.1 ho
    rw [hlabel] at htarget
    cases htarget
    cases ho
    rw [Interpreter.execute, Interpreter.jump, if_pos hneed]
    rfl
  | test | testn =>
    cases useReg_bind ho
    exact branch_agrees rfl
  | ret =>
    simp only [lowerOp] at ho
    show Agrees _ (if i.b = nilTag then .ok .leave else Interpreter.giveBack s act .ret i)
    split at ho
    · rename_i hnil
      cases ho
      rw [if_pos hnil]
      rfl
    · rename_i hnil
      obtain ⟨v, hv, ho⟩ := bind_eq_ok_iff.1 ho
      cases ho
      rw [if_neg hnil]
      exact returnOp_agrees (operand_eval hv)
  | reti =>
    cases ho
    exact returnOp_agrees rfl
  | throw =>
    simp only [lowerOp] at ho
    simp only [Interpreter.execute]
    split at ho
    · rename_i hmode
      rw [if_pos hmode]
      cases regArg_bind ho
      exact .bind rfl fun _ => rfl
    · rename_i hmode
      rw [if_neg hmode]
      obtain ⟨v, hv, ho⟩ := immArg_bind ho
      cases ho
      exact .bind hv fun _ => rfl
  | bound =>
    cases useReg_bind ho
    exact .bind rfl fun _ => checkBound_agrees act _ _
  | boundK =>
    obtain ⟨v, hv, ho⟩ := immArg_bind (useReg_bind ho)
    cases ho
    exact .bind rfl fun _ => .bind hv fun _ => checkBound_agrees act _ _
  | boundR =>
    cases regArg_bind (useReg_bind ho)
    exact .bind rfl fun _ => .bind rfl fun _ => checkBound_agrees act _ _
  | li =>
    cases useReg_bind ho
    rfl
  | lk | lkf | lks | lkp =>
    obtain ⟨v, hv, ho⟩ := immArg_bind (useReg_bind ho)
    cases ho
    exact .bind hv fun _ => rfl
  | load w o =>
    obtain ⟨x, hx, ho⟩ := bind_eq_ok_iff.1 (useReg_bind (useReg_bind ho))
    cases ho
    exact .bind rfl fun _ => .bind (offsetArg_ok hx) fun _ => load_agrees act _ _ _ _
  | store w o =>
    obtain ⟨x, hx, ho⟩ := bind_eq_ok_iff.1 (useReg_bind (useReg_bind ho))
    cases ho
    exact .bind rfl fun _ => .bind (offsetArg_ok hx) fun _ => .bind rfl fun _ =>
      store_agrees _ _ _ _
  | mov | movf | movs | mova =>
    cases regArg_bind (useReg_bind ho)
    exact .bind rfl fun _ => rfl
  | cast =>
    cases hkind : Cast.ofByte? i.c with
    | none =>
      simp only [lowerOp, hkind] at ho
      cases ho
    | some kind =>
      simp only [lowerOp, hkind] at ho
      cases useReg_bind (useReg_bind ho)
      simp only [Interpreter.execute, hkind]
      exact convert_agrees act _ _ _
  | param =>
    obtain ⟨v, hv, ho⟩ := bind_eq_ok_iff.1 ho
    obtain ⟨slot, hslot, ho⟩ := bind_eq_ok_iff.1 ho
    obtain ⟨rfl, hroom⟩ := nextParam_ok hslot
    cases ho
    refine .bind (operand_param hv) fun p => ?_
    rw [pushParam_lowered h.fits hroom]
    rfl
  | parami =>
    obtain ⟨slot, hslot, ho⟩ := bind_eq_ok_iff.1 ho
    obtain ⟨rfl, hroom⟩ := nextParam_ok hslot
    cases ho
    rw [Interpreter.execute, pushParam_lowered h.fits hroom]
    rfl
  | call =>
    exact callOp_agrees h (.inl rfl) (regArg_bind ho) rfl
  | callK =>
    obtain ⟨v, hv, ho⟩ := immArg_bind ho
    exact callOp_agrees h (.inr rfl) ho hv
  | new =>
    cases regArg_bind (useReg_bind ho)
    exact .bind rfl fun _ => alloc_agrees _ _
  | newK =>
    obtain ⟨v, hv, ho⟩ := immArg_bind (useReg_bind ho)
    cases ho
    exact .bind hv fun _ => alloc_agrees _ _
  | concat =>
    cases useReg_bind (useReg_bind (useReg_bind ho))
    exact .bind rfl fun _ => .bind rfl fun _ => rfl
  | lens | abs | neg | not | sext | flop =>
    cases useReg_bind (useReg_bind ho)
    exact .bind rfl fun _ => rfl
  | cmps =>
    obtain ⟨l, hl, ho⟩ := bind_eq_ok_iff.1 ho
    obtain ⟨r, hr, ho⟩ := bind_eq_ok_iff.1 ho
    cases ho
    refine compareSkip_agrees ?_
    rw [← comparedString_lowered hl, ← comparedString_lowered hr]
    rfl
  | intOp o form =>
    obtain ⟨⟨l, r⟩, hlr, ho⟩ := bind_eq_ok_iff.1 ho
    cases useReg_bind ho
    refine .pair (intInputs_lowered hlr) fun x y => ?_
    rw [inlineInt_eq]
    dsimp only
    cases o.eval x y <;> rfl
  | intCmp cmp form =>
    obtain ⟨⟨l, r⟩, hlr, ho⟩ := bind_eq_ok_iff.1 ho
    cases ho
    exact compareSkip_pair_agrees rfl (intCompared_lowered hlr)
  | floatOp o form =>
    obtain ⟨⟨l, r⟩, hlr, ho⟩ := bind_eq_ok_iff.1 ho
    cases useReg_bind ho
    refine .pair (floatInputs_lowered hlr) fun x y => ?_
    dsimp only
    cases o.eval x y <;> rfl
  | floatCmp cmp form =>
    obtain ⟨⟨l, r⟩, hlr, ho⟩ := bind_eq_ok_iff.1 ho
    cases ho
    exact compareSkip_pair_agrees rfl (floatInputs_lowered hlr)
  | addaRR =>
    cases regArg_bind (useReg_bind (useReg_bind ho))
    exact .bind rfl fun _ => .bind rfl fun _ => rfl
  | addaRK =>
    obtain ⟨v, hv, ho⟩ := immArg_bind (useReg_bind (useReg_bind ho))
    cases ho
    exact .bind rfl fun _ => .bind hv fun _ => rfl
  | suba =>
    cases useReg_bind (useReg_bind (useReg_bind ho))
    exact .bind rfl fun _ => .bind rfl fun _ => rfl
  | eqaR =>
    cases regArg_bind (regArg_bind ho)
    exact compareSkip_agrees rfl
  | eqaK =>
    obtain ⟨v, hv, ho⟩ := immArg_bind (regArg_bind ho)
    cases ho
    refine compareSkip_agrees ?_
    rw [Interpreter.konstPointer, ← hv]
    rfl

/-! ## The pass over the code -/

/-- The counts of pending parameters that the pass of lowering goes through: in front of each
instruction and behind the last. -/
def Lowering.countsFrom : List Instr → Nat → List Nat
  | [], pending => [pending]
  | i :: rest, pending =>
    pending :: countsFrom rest ((i.opcode?).elim pending fun op => pendingAfter pending op i)

/-- An accepted instruction changes the count of lowering as that of verification. -/
theorem Lowering.pendingAfter_eq {s : Script} {pc pending after : Nat} {op : Opcode} {i : Instr}
    (h : s.pendingAfter pc pending op i = .ok after) : pendingAfter pending op i = after := by
  cases hcounts : op.countsParams with
  | false =>
    rw [Script.pendingAfter_other hcounts h]
    cases op <;> first | rfl | cases hcounts
  | true =>
    rcases Script.countsParams_cases hcounts with hparam | hcall
    · rw [(Script.pendingAfter_param hparam h).2]
      rcases hparam with rfl | rfl <;> rfl
    · rw [(Script.pendingAfter_call hcall h).2.2.2]
      rcases hcall with rfl | rfl <;> rfl

/-- Both passes go through the same counts. -/
theorem Lowering.countsFrom_eq {s : Script} {is : List Instr} {pc pending : Nat}
    {counts : List Nat} (h : s.checkFrom is pc pending = .ok counts) :
    countsFrom is pending = counts := by
  induction is generalizing pc pending counts with
  | nil =>
    cases h
    rfl
  | cons i rest ih =>
    rw [Script.checkFrom] at h
    cases hi : s.checkInstr pc pending i with
    | error d => simp [hi] at h
    | ok after =>
      rw [hi] at h
      cases hrest : s.checkFrom rest (pc + 1) after with
      | error d => simp [hrest] at h
      | ok tail =>
        simp only [hrest, Except.ok.injEq] at h
        obtain ⟨op, hop, _, hafter⟩ := Script.checkInstr_eq_ok_iff.1 hi
        rw [countsFrom, hop, Option.elim_some, pendingAfter_eq hafter, ih hrest]
        exact h

/-- Each instruction is lowered with the count in front of it. -/
theorem Lowering.lowerFrom_at {s : Script} {is : List Instr} {pc pending : Nat} {ops : List Op}
    (h : lowerFrom s is pc pending = .ok ops) :
    ops.length = is.length ∧
      ∀ k i, is[k]? = some i → ∃ op o, i.opcode? = some op ∧ ops[k]? = some o ∧
        lowerOp s (pc + k) ((countsFrom is pending).getD k 0) op i = .ok o := by
  induction is generalizing pc pending ops with
  | nil =>
    cases h
    refine ⟨rfl, ?_⟩
    intro k i hk
    cases hk
  | cons j rest ih =>
    rw [lowerFrom] at h
    cases hop : j.opcode? with
    | none => simp [hop] at h
    | some op =>
      simp only [hop] at h
      cases hlower : lowerOp s pc pending op j with
      | error e => simp [hlower] at h
      | ok o =>
        rw [hlower] at h
        cases hrest : lowerFrom s rest (pc + 1) (pendingAfter pending op j) with
        | error e => simp [hrest] at h
        | ok tail =>
          simp only [hrest, Except.ok.injEq] at h
          subst h
          obtain ⟨hlen, hat⟩ := ih hrest
          refine ⟨by simp [hlen], ?_⟩
          intro k i hk
          cases k with
          | zero =>
            cases hk
            exact ⟨op, o, hop, rfl, hlower⟩
          | succ k =>
            obtain ⟨op', o', hop', ho', hlower'⟩ := hat k i hk
            refine ⟨op', o', hop', ho', ?_⟩
            rw [countsFrom, hop, Option.elim_some, List.getD_cons_succ]
            rwa [Nat.add_right_comm, Nat.add_assoc] at hlower'

/-- The operation at each index of compiled code is lowered from the instruction there, with the
count that verification has found. -/
theorem Lowering.lowerCode_at {s : Script} {ops : Array Op} (hverify : s.verify = .ok ())
    (hlower : lowerCode s = .ok ops) :
    ops.size = s.code.size ∧
      ∀ pc i op, s.code[pc]? = some i → i.opcode? = some op → ∃ o, ops[pc]? = some o ∧
        lowerOp s pc (s.pendingAt pc) op i = .ok o := by
  obtain ⟨counts, hcounts, _, hat⟩ := Script.pendingCounts_of_verify hverify
  rw [lowerCode, map_eq_ok_iff] at hlower
  obtain ⟨list, hlist, rfl⟩ := hlower
  obtain ⟨hlen, hops⟩ := lowerFrom_at hlist
  refine ⟨by simpa using hlen, ?_⟩
  intro pc i op hi hop
  obtain ⟨op', o, hop', ho, hlowered⟩ := hops pc i (by simpa using hi)
  rw [hop] at hop'
  cases hop'
  refine ⟨o, by simpa using ho, ?_⟩
  have hpc : pc < s.code.size := (Array.getElem?_eq_some_iff.1 hi).1
  rw [countsFrom_eq hcounts, List.getD_eq_getElem?_getD, hat pc (by omega), Option.getD_some,
    Nat.zero_add] at hlowered
  exact hlowered

end TierVm
