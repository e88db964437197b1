import TierVm.Exec.Invoke
import TierVm.Proofs.Accepted

/-!
# Effects by operation

Most instructions only touch the activation itself: they compute, use the memory, push parameters
and call.  Three things are left to a few operations.  Only jumps lead back, only returns leave
something to the caller or end the activation, and only two operations make objects.

* `Yields` says that an instruction has no effects but those of a kind.  `execute_yields` goes
  through the operations, for every kind that has the common effects.
* `Effect.isPlain` tells the effects that neither lead back nor concern the caller.  `execute_plain`
  and `lowered_plain` say that all other operations have plain effects, in both ways of execution.
* `jump_ok` is the effect of a jump, and `giveBack_ok` and `loweredReturn_ok` are those of a return.
* `execute_alloc`: an operation that makes an object is one of the two that allocate.
-/

namespace TierVm

open Interpreter

/-- The effect neither leads back nor concerns the caller. -/
def Effect.isPlain : Effect → Bool
  | .goto _ backward => !backward
  | .give .. | .leave => false
  | _ => true

/-- What an instruction comes to is of a kind, if it comes to an effect. -/
def Yields (P : Effect → Prop) (outcome : Except Trap Effect) : Prop := ∀ e, outcome = .ok e → P e

/-- What an instruction comes to is a plain effect, if it comes to an effect. -/
def Plain (outcome : Except Trap Effect) : Prop := ∀ e, outcome = .ok e → e.isPlain = true

/-- A kind of effects that has all those which many operations have. -/
structure Effect.Common (P : Effect → Prop) : Prop where
  put : ∀ index v, P (.put index v)
  store : ∀ address bytes, P (.store address bytes)
  param : ∀ slot q, P (.param slot q)
  goto : ∀ pc, P (.goto pc false)
  call : ∀ callee first count targets cells, P (.call callee first count targets cells)

theorem Effect.common_isPlain : Effect.Common (·.isPlain = true) where
  put _ _ := rfl
  store _ _ := rfl
  param _ _ := rfl
  goto _ := rfl
  call _ _ _ _ _ := rfl

section

variable {P : Effect → Prop} {s : Script} {act : Activation} {i : Instr}

theorem Yields.ok {e : Effect} (h : P e) : Yields P (.ok e) := by
  rintro _ ⟨⟩
  exact h

theorem Yields.error (trap : Trap) : Yields P (.error trap) := by
  intro _ h
  cases h

theorem Yields.bind {α : Type} {m : Except Trap α} {f : α → Except Trap Effect}
    (hf : ∀ x, Yields P (f x)) : Yields P (m >>= f) := by
  intro e h
  obtain ⟨x, _, hx⟩ := bind_eq_ok_iff.1 h
  exact hf x e hx

variable (hP : Effect.Common P)

/-! ## Operations that both ways of execution share -/

theorem yields_alloc {index : Nat} (halloc : ∀ size, P (.alloc index size)) (size : Int32) :
    Yields P (Activation.alloc index size) := by
  unfold Activation.alloc
  split
  · exact .ok (halloc _)
  · exact .error _

include hP

theorem yields_checkBound (index limit : Int32) : Yields P (act.checkBound index limit) := by
  unfold Activation.checkBound
  split
  · exact .error _
  · exact .ok (hP.goto _)

theorem yields_load (w : Width) (index : Nat) (base : Address) (offset : Int32) :
    Yields P (act.load w index base offset) := by
  unfold Activation.load
  split
  · exact .error _
  · split
    · exact .ok (hP.put _ _)
    · exact .error _

theorem yields_store (w : Width) (base : Address) (offset : Int32) (v : Value) :
    Yields P (Activation.store w base offset v) := by
  unfold Activation.store
  split
  · exact .error _
  · exact .ok (hP.store _ _)

theorem yields_convert (kind : Cast) (dst src : Nat) : Yields P (act.convert kind dst src) := by
  cases kind <;> exact .bind fun _ => .ok (hP.put _ _)

/-! ## The interpreter -/

theorem yields_skipWhen (skip : Bool) : Yields P (.ok (skipWhen s act skip)) := by
  cases skip <;> exact .ok (hP.goto _)

theorem yields_pushParam (q : Param) : Yields P (pushParam s act q) := by
  unfold pushParam
  split
  · exact .error _
  · exact .ok (hP.param _ _)

theorem yields_call (callee : Address) : Yields P (call s act callee i) := by
  simp only [call]
  split
  · exact .error _
  · split
    · exact .error _
    · exact .bind fun _ => .ok (hP.call _ _ _ _ _)

/-- An operation that is neither a jump nor a return has a common effect, unless it makes an
object. -/
theorem execute_yields {op : Opcode} (hjmp : op ≠ .jmp) (hret : op ≠ .ret) (hreti : op ≠ .reti)
    (halloc : op = .new ∨ op = .newK → ∀ index size, P (.alloc index size)) :
    Yields P (execute s act op i) := by
  cases op with
  | jmp => exact absurd rfl hjmp
  | ret => exact absurd rfl hret
  | reti => exact absurd rfl hreti
  | nop | result => exact .ok (hP.goto _)
  | test | testn => exact .bind fun _ => yields_skipWhen hP _
  | throw =>
    simp only [execute]
    split <;> exact .bind fun _ => .error _
  | bound => exact .bind fun index => yields_checkBound hP index _
  | boundK | boundR =>
    exact .bind fun index => .bind fun limit => yields_checkBound hP index limit
  | li => exact .ok (hP.put _ _)
  | lk | lkf | lks | lkp | mov | movf | movs | mova => exact .bind fun _ => .ok (hP.put _ _)
  | load w o => exact .bind fun base => .bind fun offset => yields_load hP w _ base offset
  | store w o =>
    exact .bind fun base => .bind fun offset => .bind fun v => yields_store hP w base offset v
  | cast =>
    simp only [execute]
    split
    · exact yields_convert hP _ _ _
    · exact .error _
  | param => exact .bind fun q => yields_pushParam hP q
  | parami => exact yields_pushParam hP _
  | call | callK => exact .bind fun callee => yields_call hP callee
  | new => exact .bind fun size => yields_alloc (halloc (.inl rfl) _) size
  | newK => exact .bind fun size => yields_alloc (halloc (.inr rfl) _) size
  | lens | abs | neg | not | sext | flop => exact .bind fun _ => .ok (hP.put _ _)
  | concat | addaRR | addaRK | suba => exact .bind fun _ => .bind fun _ => .ok (hP.put _ _)
  | cmps | eqaR | eqaK => exact .bind fun _ => .bind fun _ => yields_skipWhen hP _
  | intCmp cmp form | floatCmp cmp form => exact .bind fun _ => yields_skipWhen hP _
  | intOp o form | floatOp o form =>
    refine .bind fun inputs => ?_
    simp only
    split
    · exact .ok (hP.put _ _)
    · exact .error _

omit hP

/-- An operation that is neither a jump nor a return has a plain effect. -/
theorem execute_plain {op : Opcode} (hjmp : op ≠ .jmp) (hret : op ≠ .ret) (hreti : op ≠ .reti) :
    Plain (execute s act op i) :=
  execute_yields Effect.common_isPlain hjmp hret hreti fun _ _ _ => rfl

theorem give_ok {slot : Nat} {v : Value} {last : Bool} {e : Effect}
    (h : act.give slot v last = .ok e) : e = .give slot (some v) last := by
  unfold Activation.give at h
  split at h
  · cases h
    rfl
  · cases h

/-- A jump goes to its target, and tells whether that is no later instruction. -/
theorem jump_ok {e : Effect} (h : jump s act i = .ok e) :
    e = .goto (jumpTarget act.pc i).toNat (decide (jumpTarget act.pc i ≤ (act.pc : Int))) := by
  simp only [jump] at h
  split at h
  · rename_i htarget
    cases h
    have hle : (jumpTarget act.pc i).toNat ≤ act.pc ↔ jumpTarget act.pc i ≤ (act.pc : Int) := by
      omega
    rw [decide_eq_decide.2 hle]
  · cases h

/-- A jump aborts nothing: it goes on, or its target is not in the code. -/
theorem jump_cases (s : Script) (act : Activation) (i : Instr) :
    (∃ e, jump s act i = .ok e) ∨ jump s act i = .error (.stop .badIndex) := by
  simp only [jump]
  split
  · exact .inl ⟨_, rfl⟩
  · exact .inr rfl

/-- A return leaves something to the caller, or nothing if the caller did not ask for it. -/
theorem giveBack_ok {op : Opcode} {e : Effect} (h : giveBack s act op i = .ok e) :
    ∃ v, e = .give (i.a &&& 127).toNat v (!clearIn finalBit i.a) := by
  simp only [giveBack] at h
  split at h
  · split at h
    all_goals
      obtain ⟨v, _, hv⟩ := bind_eq_ok_iff.1 h
      exact ⟨_, give_ok hv⟩
  · cases h
    exact ⟨_, rfl⟩

/-- Only two operations make objects. -/
theorem execute_alloc {op : Opcode} {index size : Nat}
    (h : execute s act op i = .ok (.alloc index size)) : op = .new ∨ op = .newK := by
  by_contra hop
  have hothers : op ≠ .jmp → op ≠ .ret → op ≠ .reti → False := by
    intro hjmp hret hreti
    have hkind : Effect.Common fun e => e ≠ .alloc index size :=
      ⟨fun _ _ => nofun, fun _ _ => nofun, fun _ _ => nofun, fun _ => nofun,
        fun _ _ _ _ _ => nofun⟩
    exact execute_yields hkind hjmp hret hreti (fun hnew => absurd hnew hop) _ h rfl
  cases op with
  | jmp => cases jump_ok h
  | ret =>
    simp only [execute] at h
    split at h
    · cases h
    · obtain ⟨v, hv⟩ := giveBack_ok h
      cases hv
  | reti =>
    obtain ⟨v, hv⟩ := giveBack_ok h
    cases hv
  | _ => exact hothers nofun nofun nofun

/-! ## Lowered code -/

theorem plain_loweredCall (callee : Address) (first count : Nat) (targets : List Target) :
    Yields (·.isPlain = true) (Lowered.call callee first count targets) := by
  unfold Lowered.call
  split
  · exact .error _
  · exact .ok rfl

/-- A lowered operation that is no return has a plain effect. -/
theorem lowered_plain {o : Lowered.Op} (hret : ∀ slot value last, o ≠ .ret slot value last)
    (hnil : o ≠ .retNil) : Plain (Lowered.step act o) := by
  show Yields (·.isPlain = true) (Lowered.step act o)
  cases o with
  | ret slot value last => exact absurd rfl (hret slot value last)
  | retNil => exact absurd rfl hnil
  | nop | jump target => exact .ok rfl
  | branch test yes no => exact .bind fun _ => .ok rfl
  | checkBound index limit =>
    exact .bind fun _ => .bind fun _ => yields_checkBound Effect.common_isPlain _ _
  | throw object => exact .bind fun _ => .error _
  | setInt dst src | setFloat dst src | setString dst src | setPointer dst src =>
    exact .bind fun _ => .ok rfl
  | intOp op dst l r | floatOp op dst l r =>
    refine .bind fun _ => .bind fun _ => ?_
    split
    · exact .ok rfl
    · exact .error _
  | intUnary op dst src | flop code dst src => exact .bind fun _ => .ok rfl
  | load w dst base offset =>
    exact .bind fun _ => .bind fun _ => yields_load Effect.common_isPlain w _ _ _
  | store w base src offset =>
    exact .bind fun _ => .bind fun _ => .bind fun _ => yields_store Effect.common_isPlain w _ _ _
  | convert kind dst src => exact yields_convert Effect.common_isPlain _ _ _
  | param slot value => exact .bind fun _ => .ok rfl
  | call callee first count targets => exact .bind fun _ => plain_loweredCall _ _ _ _
  | alloc dst size => exact .bind fun _ => yields_alloc (fun _ => rfl) _
  | concat dst l r | movePointer dst base offset | distance dst l r =>
    exact .bind fun _ => .bind fun _ => .ok rfl
  | length dst src => exact .bind fun _ => .ok rfl

theorem loweredReturn_ok {slot : Nat} {value : Lowered.Operand} {last : Bool} {e : Effect}
    (h : Lowered.step act (.ret slot value last) = .ok e) : ∃ v, e = .give slot v last := by
  simp only [Lowered.step] at h
  split at h
  · obtain ⟨v, _, hv⟩ := bind_eq_ok_iff.1 h
    exact ⟨_, give_ok hv⟩
  · cases h
    exact ⟨_, rfl⟩

end

end TierVm
