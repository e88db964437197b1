import TierVm.Proofs.Attribution
import TierVm.Proofs.PlainEffects
import TierVm.Proofs.StoredResults

/-!
# The return protocol

A script returns values one by one, in any order and as often as it likes, into slots of its caller
that the caller may not even have.  This module says what the caller finds at the end.

* `Return` is a return with a value.  `Script.AtReturn` says that an activation stands at a return,
  `Script.return?` is the return if it has a value, and `Script.ReturnsNil` says that it has none.
* `Stands` sorts instructions by what they mean for the caller, and `Mode.stands` does so for both
  ways of execution.
* `Answers` is what an instruction comes to then: `Stands.answers`.
* `Invocation.Returns` is a whole activation with the returns that it has carried out.
  `collected_of_returns` follows the slots along it, and `Concludes` is the number of results at its
  end.
* `return_protocol` puts the pieces together.
-/

namespace TierVm

open Interpreter

variable {σ : Type}

/-! ## Returns -/

/-- A return with a value.  `last` tells that it ends the activation. -/
structure Return where
  slot : Nat
  value : Value
  last : Bool

namespace Return

/-- The return of a value by an instruction. -/
def ofInstr (i : Instr) (v : Value) : Return := ⟨(i.a &&& 127).toNat, v, !clearIn finalBit i.a⟩

/-- The return that a decoded instruction is, if it is one with a value. -/
def ofOp? (s : Script) (act : Activation) (op : Opcode) (i : Instr) : Option Return :=
  match op with
  | .ret =>
    if i.b = nilTag then none
    else (sourceValue s act (.decode i.b i.c.toNat)).toOption.map (ofInstr i)
  | .reti => some (ofInstr i (.int i.bcSigned.toInt32))
  | _ => none

theorem ofOp?_eq_none {s : Script} {act : Activation} {op : Opcode} (i : Instr)
    (hret : op ≠ .ret) (hreti : op ≠ .reti) : ofOp? s act op i = none := by
  unfold ofOp?
  split
  · exact absurd rfl hret
  · exact absurd rfl hreti
  · rfl

/-- The value of a return, with its slot. -/
def store (ret : Return) : Store := (ret.slot, ret.value)

/-- What follows a return that is carried out: the activation goes on, or ends with the number of
results up to this one that the caller has slots for. -/
def follow (ret : Return) (act : Activation) (amb : Ambient σ) : Turn σ :=
  if ret.last then
    .done ⟨.finished (min (ret.slot + 1) act.slots.size), act.slots, act.memory, amb⟩
  else .on { act with pc := act.pc + 1 } amb

end Return

namespace Script

/-- The activation stands at a return. -/
def AtReturn (s : Script) (act : Activation) : Prop :=
  ∃ i, s.code[act.pc]? = some i ∧ (i.opcode? = some .ret ∨ i.opcode? = some .reti)

/-- The return with a value that an activation stands at. -/
def return? (s : Script) (act : Activation) : Option Return :=
  (s.code[act.pc]?).bind fun i => (i.opcode?).bind fun op => Return.ofOp? s act op i

/-- The activation stands at a return without a value. -/
def ReturnsNil (s : Script) (act : Activation) : Prop :=
  ∃ i, s.code[act.pc]? = some i ∧ i.opcode? = some .ret ∧ i.b = nilTag

/-- The return that an activation stands at, if it is carried out. -/
def executed? (s : Script) (effectAt : Activation → Option (Except Trap Effect))
    (act : Activation) : Option Return :=
  match effectAt act with
  | some (.ok _) => s.return? act
  | _ => none

end Script

/-- The effect of a return: a slot that the caller does not have is ignored. -/
def Activation.answer (act : Activation) (ret : Return) : Except Trap Effect :=
  if ret.slot < act.slots.size then act.give ret.slot ret.value ret.last
  else .ok (.give ret.slot none ret.last)

/-- The effect does not concern the caller. -/
def Effect.isInner : Effect → Bool
  | .give .. | .leave => false
  | _ => true

/-- What the instruction at which an activation stands means for the caller, by its outcome. -/
inductive Stands (s : Script) (act : Activation) : Option (Except Trap Effect) → Prop where
  | behind (hend : act.pc = s.code.size) (hnone : s.return? act = none) : Stands s act none
  | nil (hnil : s.ReturnsNil act) (hnone : s.return? act = none) : Stands s act (some (.ok .leave))
  | gives {ret : Return} (hret : s.return? act = some ret) : Stands s act (some (act.answer ret))
  | inner {outcome : Except Trap Effect} (hinner : ∀ e, outcome = .ok e → e.isInner = true)
      (hpc : act.pc < s.code.size) (hother : ¬ s.AtReturn act) (hnone : s.return? act = none) :
      Stands s act (some outcome)

section Instruction

variable {s : Script} {act : Activation} {i : Instr} {op : Opcode}

theorem Effect.isInner_of_isPlain {e : Effect} (h : e.isPlain = true) : e.isInner = true := by
  cases e with
  | give slot v last => cases h
  | leave => cases h
  | _ => rfl

/-- The effect of a return whose value is known. -/
theorem giveBack_eq {v : Value}
    (hv : (if op = .reti then pure (Value.int i.bcSigned.toInt32)
      else sourceValue s act (.decode i.b i.c.toNat)) = .ok v) :
    giveBack s act op i = act.answer (.ofInstr i v) := by
  by_cases hslot : (i.a &&& 127).toNat < act.slots.size
  · rw [Activation.answer, if_pos (show (Return.ofInstr i v).slot < act.slots.size from hslot)]
    simp only [giveBack, if_pos hslot]
    split at hv
    · rename_i hop
      cases hv
      rw [if_pos hop]
      rfl
    · rename_i hop
      rw [if_neg hop, hv]
      rfl
  · rw [Activation.answer,
      if_neg (show ¬ (Return.ofInstr i v).slot < act.slots.size from hslot)]
    simp only [giveBack, if_neg hslot]
    rfl

theorem stands_ret (h : StandsAt s act .ret i) : Stands s act (some (execute s act .ret i)) := by
  have hreturn : s.return? act = Return.ofOp? s act .ret i := by
    simp [Script.return?, h.instr, h.opcode]
  rw [Return.ofOp?] at hreturn
  simp only [execute]
  split
  · rename_i hnil
    rw [if_pos hnil] at hreturn
    exact .nil ⟨i, h.instr, h.opcode, hnil⟩ hreturn
  · rename_i hnil
    have hsource : (Need.ofSource (.decode i.b i.c.toNat)).Forall (·.Met s) :=
      ((List.forall_cons _ _ _).1 h.checked.1).2
    obtain ⟨v, hv⟩ := sourceValue_ok h.fits hsource
    rw [if_neg hnil, hv] at hreturn
    rw [giveBack_eq ((if_neg (by decide)).trans hv)]
    exact .gives hreturn

theorem stands_reti (h : StandsAt s act .reti i) : Stands s act (some (execute s act .reti i)) := by
  have hreturn : s.return? act = Return.ofOp? s act .reti i := by
    simp [Script.return?, h.instr, h.opcode]
  simp only [execute]
  rw [giveBack_eq (if_pos rfl)]
  exact .gives hreturn

/-- The interpreter answers the caller at returns and nowhere else. -/
theorem stands_step (h : StandsAt s act op i) : Stands s act (some (step s act i)) := by
  rw [step, h.opcode]
  by_cases hret : op = .ret
  · subst hret
    exact stands_ret h
  · by_cases hreti : op = .reti
    · subst hreti
      exact stands_reti h
    · have hnone : s.return? act = none := by
        simp only [Script.return?, h.instr, h.opcode, Option.bind_some]
        exact Return.ofOp?_eq_none i hret hreti
      have hother : ¬ s.AtReturn act := by
        rintro ⟨j, hj, hop⟩
        rw [h.instr] at hj
        cases hj
        rw [h.opcode] at hop
        rcases hop with hop | hop
        · exact hret (Option.some.inj hop)
        · exact hreti (Option.some.inj hop)
      refine .inner ?_ h.pc_lt hother hnone
      intro e he
      by_cases hjmp : op = .jmp
      · subst hjmp
        rw [jump_ok he]
        rfl
      · exact Effect.isInner_of_isPlain (execute_plain hjmp hret hreti e he)

/-- Lowering does not touch the effects that concern the caller. -/
theorem Stands.lowered {outcome : Except Trap Effect} (h : Stands s act (some outcome)) :
    Stands s act (some (outcome.map Effect.lowered)) := by
  cases h with
  | nil hnil hnone => exact .nil hnil hnone
  | @gives ret hret =>
    have hsame : (act.answer ret).map Effect.lowered = act.answer ret := by
      unfold Activation.answer Activation.give
      split
      · split <;> rfl
      · rfl
    rw [hsame]
    exact .gives hret
  | inner hinner hpc hother hnone =>
    refine .inner ?_ hpc hother hnone
    intro e he
    cases outcome with
    | error trap => cases he
    | ok e' =>
      cases he
      have hinner' := hinner e' rfl
      cases e' with
      | give slot v last => cases hinner'
      | leave => cases hinner'
      | _ => rfl

/-- Both ways of execution answer the caller at returns and nowhere else. -/
theorem Mode.stands {effectAt : Activation → Option (Except Trap Effect)} (hmode : Mode s effectAt)
    (hverify : s.verify = .ok ()) (hfit : act.Fits s) : Stands s act (effectAt act) := by
  obtain ⟨hend, hnone⟩ | ⟨op, i, hstands, heffect | heffect⟩ := hmode.cases hverify hfit
  · rw [hnone]
    refine .behind hend ?_
    simp [Script.return?, hend]
  · rw [heffect]
    exact stands_step hstands
  · rw [heffect]
    exact (stands_step hstands).lowered

end Instruction

/-! ## One instruction -/

/-- The caller's slots are as many as at first, and each has its class. -/
structure ReturnSlots.Shaped (r r' : ReturnSlots) : Prop where
  size_eq : r'.size = r.size
  class?_eq : ∀ i, r'.class? i = r.class? i

/-- What an instruction comes to, by what it means for a caller with the given slots.  A return
without a value is the same as the end of the code. -/
structure Answers (caller : ReturnSlots) (s : Script) (id : FunctionId) (act : Activation)
    (amb : Ambient σ) (t : Turn σ) : Prop where
  /-- Behind the end of the code there are no results. -/
  behind : act.pc = s.code.size → t = .done ⟨.finished 0, act.slots, act.memory, amb⟩
  nil : s.ReturnsNil act → t = .done ⟨.finished 0, act.slots, act.memory, amb⟩
  /-- All other returns have a value. -/
  value : s.AtReturn act → s.ReturnsNil act ∨ ∃ ret, s.return? act = some ret
  /-- A return for which the caller has no slot writes nothing, whatever its class. -/
  ignored : ∀ {ret}, s.return? act = some ret → caller.size ≤ ret.slot → t = ret.follow act amb
  stored : ∀ {ret}, s.return? act = some ret →
    caller.class? ret.slot = some ret.value.regClass →
    t = ret.follow { act with slots := act.slots.set ret.slot ret.value } amb
  /-- A return into a slot of another class aborts there, and leaves all slots. -/
  refused : ∀ {ret cls}, s.return? act = some ret → caller.class? ret.slot = some cls →
    cls ≠ ret.value.regClass →
    t = .done ⟨.aborted (.ofAbort { reason := .other, arg := 0 } (some ⟨id, act.pc⟩)),
      act.slots, act.memory, amb⟩

section Turn

variable {s : Script} {act : Activation} {amb : Ambient σ} {ret : Return} {functions : Nat}
  {call : Invoke σ} {self : FunctionId} {effectAt : Activation → Option (Except Trap Effect)}

theorem Script.ReturnsNil.atReturn (h : s.ReturnsNil act) : s.AtReturn act := by
  obtain ⟨i, hi, hop, _⟩ := h
  exact ⟨i, hi, .inl hop⟩

theorem Script.AtReturn.pc_lt (h : s.AtReturn act) : act.pc < s.code.size := by
  obtain ⟨i, hi, _⟩ := h
  exact (Array.getElem?_eq_some_iff.1 hi).1

theorem Script.pc_lt_of_return? (h : s.return? act = some ret) : act.pc < s.code.size := by
  obtain ⟨i, hi, _⟩ := Option.bind_eq_some_iff.1 h
  exact (Array.getElem?_eq_some_iff.1 hi).1

theorem Script.ReturnsNil.return?_eq_none (h : s.ReturnsNil act) : s.return? act = none := by
  obtain ⟨i, hi, hop, hnil⟩ := h
  simp [Script.return?, hi, hop, Return.ofOp?, hnil]

namespace Stands

variable {outcome : Option (Except Trap Effect)}

theorem eq_of_behind (h : Stands s act outcome) (hpc : act.pc = s.code.size) : outcome = none := by
  cases h with
  | behind => rfl
  | nil hnil => exact absurd hnil.atReturn.pc_lt (by omega)
  | gives hret => exact absurd (Script.pc_lt_of_return? hret) (by omega)
  | inner _ hlt => omega

theorem eq_of_nil (h : Stands s act outcome) (hnil : s.ReturnsNil act) :
    outcome = some (.ok .leave) := by
  cases h with
  | behind hend => exact absurd hnil.atReturn.pc_lt (by omega)
  | nil => rfl
  | gives hret => cases hret.symm.trans hnil.return?_eq_none
  | inner _ _ hother => exact absurd hnil.atReturn hother

theorem eq_of_return (h : Stands s act outcome) (hret : s.return? act = some ret) :
    outcome = some (act.answer ret) := by
  cases h with
  | gives hret' =>
    cases hret.symm.trans hret'
    rfl
  | behind _ hnone | nil _ hnone | inner _ _ _ hnone => cases hret.symm.trans hnone

theorem value_of_atReturn (h : Stands s act outcome) (hreturn : s.AtReturn act) :
    s.ReturnsNil act ∨ ∃ ret, s.return? act = some ret := by
  cases h with
  | behind hend => exact absurd hreturn.pc_lt (by omega)
  | nil hnil => exact .inl hnil
  | gives hret => exact .inr ⟨_, hret⟩
  | inner _ _ hother => exact absurd hreturn hother

end Stands

/-- A return for which the caller has no slot. -/
theorem turn_of_ignored (heffect : effectAt act = some (act.answer ret))
    (hslot : act.slots.size ≤ ret.slot) :
    turn functions call self effectAt act amb = ret.follow act amb := by
  simp only [turn, heffect, Activation.answer, if_neg (Nat.not_lt.2 hslot), Activation.perform,
    Return.follow]
  cases ret.last <;> rfl

/-- A return into a slot of its class. -/
theorem turn_of_stored (heffect : effectAt act = some (act.answer ret))
    (hclass : act.slots.class? ret.slot = some ret.value.regClass) :
    turn functions call self effectAt act amb =
      ret.follow { act with slots := act.slots.set ret.slot ret.value } amb := by
  have hslot := ReturnSlots.lt_size_of_class? hclass
  simp only [turn, heffect, Activation.answer, if_pos hslot, Activation.give, if_pos hclass,
    Activation.perform, Return.follow]
  cases ret.last <;> rfl

/-- A return into a slot of another class. -/
theorem turn_of_refused (heffect : effectAt act = some (act.answer ret)) {cls : RegClass}
    (hclass : act.slots.class? ret.slot = some cls) (hne : cls ≠ ret.value.regClass) :
    turn functions call self effectAt act amb =
      .done ⟨.aborted (.ofAbort { reason := .other, arg := 0 } (some ⟨self, act.pc⟩)), act.slots,
        act.memory, amb⟩ := by
  have hslot := ReturnSlots.lt_size_of_class? hclass
  have hother : act.slots.class? ret.slot ≠ some ret.value.regClass := by
    rw [hclass]
    exact fun heq => hne (Option.some.inj heq)
  simp only [turn, heffect, Activation.answer, if_pos hslot, Activation.give, if_neg hother,
    abortWith]

/-- Instructions answer the caller by the protocol. -/
theorem Stands.answers {caller : ReturnSlots} (h : Stands s act (effectAt act))
    (hshaped : caller.Shaped act.slots) :
    Answers caller s self act amb (turn functions call self effectAt act amb) where
  behind hpc := by simp only [turn, h.eq_of_behind hpc]
  nil hnil := by simp only [turn, h.eq_of_nil hnil, Activation.perform, follow]
  value hreturn := h.value_of_atReturn hreturn
  ignored hret hslot := by
    rw [← hshaped.size_eq] at hslot
    exact turn_of_ignored (h.eq_of_return hret) hslot
  stored hret hclass := by
    rw [← hshaped.class?_eq] at hclass
    exact turn_of_stored (h.eq_of_return hret) hclass
  refused hret hclass hne := by
    rw [← hshaped.class?_eq] at hclass
    exact turn_of_refused (h.eq_of_return hret) hclass hne

end Turn

/-! ## The end of an activation -/

/-- How an activation ends whose caller has `n` slots: by the instruction at which it stood last,
and by the returns that it carried out. -/
inductive Concludes (s : Script) (n : Nat) (last : Activation) (returns : List Return) :
    Outcome → Prop where
  | behind (hpc : last.pc = s.code.size) : Concludes s n last returns (.finished 0)
  | nil (hnil : s.ReturnsNil last) : Concludes s n last returns (.finished 0)
  | final {ret : Return} (hret : s.return? last = some ret) (hdone : returns.getLast? = some ret)
      (hlast : ret.last = true) : Concludes s n last returns (.finished (min (ret.slot + 1) n))
  | aborted (x : ScriptException) : Concludes s n last returns (.aborted x)

theorem Return.follow_done {ret : Return} {act : Activation} {amb : Ambient σ} {r : Result σ}
    (h : ret.follow act amb = .done r) :
    ret.last = true ∧ r.outcome = .finished (min (ret.slot + 1) act.slots.size) := by
  unfold Return.follow at h
  split at h
  · rename_i hlast
    cases h
    exact ⟨hlast, rfl⟩
  · cases h

/-- Only effects that concern the caller end an activation. -/
theorem perform_ne_leave {act act' : Activation} {e : Effect} {count : Nat}
    (hinner : e.isInner = true) : act.perform e ≠ .ok (.leave act' count) := by
  intro h
  cases e with
  | give slot v last => cases hinner
  | leave => cases hinner
  | put index v | store address bytes | param slot q =>
    simp only [Activation.perform] at h
    split at h <;> cases h
  | alloc index size =>
    simp only [Activation.perform] at h
    split at h
    · cases h
    · split at h <;> cases h
  | call callee first count targets cells =>
    simp only [Activation.perform] at h
    split at h <;> cases h
  | goto pc backward => cases h

section End

variable {s : Script} {functions : Nat} {call : Invoke σ} {self : FunctionId}
  {effectAt : Activation → Option (Except Trap Effect)} {last : Activation × Ambient σ}
  {r : Result σ}

theorem concludes_of_follow {ret : Return} {act : Activation} {amb : Ambient σ} {e : Effect}
    (hret : s.return? last.1 = some ret) (heffect : effectAt last.1 = some (.ok e))
    (hsize : act.slots.size = last.1.slots.size) (hturn : ret.follow act amb = .done r)
    (returns : List Return) :
    Concludes s last.1.slots.size last.1 (returns ++ (s.executed? effectAt last.1).toList)
      r.outcome := by
  have hexecuted : s.executed? effectAt last.1 = some ret := by
    simp only [Script.executed?, heffect, hret]
  obtain ⟨hlast, houtcome⟩ := Return.follow_done hturn
  rw [houtcome, hexecuted, hsize]
  exact .final hret (by simp) hlast

/-- The last instruction of an activation, if it is a return. -/
theorem concludes_of_return {ret : Return} (hret : s.return? last.1 = some ret)
    (heffect : effectAt last.1 = some (last.1.answer ret))
    (hend : Ends functions call self effectAt last r) (returns : List Return) :
    Concludes s last.1.slots.size last.1 (returns ++ (s.executed? effectAt last.1).toList)
      r.outcome := by
  have hturn := turn_of_ends hend
  rcases Nat.lt_or_ge ret.slot last.1.slots.size with hlt | hge
  · obtain ⟨cls, hclass⟩ := ReturnSlots.class?_eq_some hlt
    by_cases hcls : cls = ret.value.regClass
    · rw [hcls] at hclass
      rw [turn_of_stored heffect hclass] at hturn
      rw [Activation.answer, if_pos hlt, Activation.give, if_pos hclass] at heffect
      refine concludes_of_follow hret heffect ?_ hturn returns
      rw [ReturnSlots.size, ReturnSlots.size, ReturnSlots.cellOf_set]
    · rw [turn_of_refused heffect hclass hcls] at hturn
      cases hturn
      exact .aborted _
  · rw [turn_of_ignored heffect hge] at hturn
    rw [Activation.answer, if_neg (Nat.not_lt.2 hge)] at heffect
    exact concludes_of_follow hret heffect rfl hturn returns

/-- Activations end by the protocol. -/
theorem Stands.concludes (h : Stands s last.1 (effectAt last.1))
    (hend : Ends functions call self effectAt last r) (returns : List Return) :
    Concludes s last.1.slots.size last.1 (returns ++ (s.executed? effectAt last.1).toList)
      r.outcome := by
  cases hret : s.return? last.1 with
  | some ret => exact concludes_of_return hret (h.eq_of_return hret) hend returns
  | none =>
    cases hend with
    | falls heffect =>
      rw [heffect] at h
      cases h with
      | behind hpc => exact .behind hpc
    | raises => exact .aborted _
    | propagates => exact .aborted _
    | leaves heffect hperform =>
      rw [heffect] at h
      generalize houtcome : some (Except.ok _) = outcome at h
      cases h with
      | behind => cases houtcome
      | nil hnil =>
        cases houtcome
        cases hperform
        exact .nil hnil
      | gives hgives => cases hret.symm.trans hgives
      | inner hinner =>
        cases houtcome
        exact absurd hperform (perform_ne_leave (hinner _ rfl))

theorem count_le_of_perform {act act' : Activation} {e : Effect} {count : Nat}
    (h : act.perform e = .ok (.leave act' count)) : count ≤ act'.slots.size := by
  cases hinner : e.isInner with
  | true => exact absurd h (perform_ne_leave hinner)
  | false =>
    cases e with
    | give slot v last =>
      cases last with
      | true =>
        cases h
        exact Nat.min_le_right ..
      | false => cases h
    | leave =>
      cases h
      exact Nat.zero_le _
    | _ => cases hinner

theorem count_le_of_ends (h : Ends functions call self effectAt last r) :
    r.outcome.count ≤ r.slots.size := by
  cases h with
  | falls | raises | propagates => exact Nat.zero_le _
  | leaves _ hperform => exact count_le_of_perform hperform

theorem count_le_of_hostEnds {state : HostState σ} (h : HostEnds state r) :
    r.outcome.count ≤ r.slots.size := by
  cases h with
  | finish => exact Nat.min_le_right ..
  | fail | mismatch => exact Nat.zero_le _

theorem count_leaveFrame_le (r : Result σ) : (leaveFrame r).outcome.count ≤ r.outcome.count := by
  unfold leaveFrame
  split
  · exact Nat.le_refl _
  · split
    · exact Nat.le_refl _
    · exact Nat.zero_le _

end End

/-! ## Whole activations -/

section Slots

variable {s : Script} {act : Activation} {effectAt : Activation → Option (Except Trap Effect)}

/-- What the caller's slots take from an instruction is the return that it carries out. -/
theorem Stands.takes {slots' : ReturnSlots} (h : Stands s act (effectAt act))
    (htakes : act.slots.Takes (storedAt effectAt act) slots') :
    act.slots.Takes ((s.executed? effectAt act).map Return.store) slots' := by
  unfold storedAt at htakes
  unfold Script.executed?
  generalize effectAt act = outcome at h htakes
  cases h with
  | behind => exact htakes
  | nil _ hnone =>
    simp only [hnone]
    exact htakes
  | @gives ret hret =>
    unfold Activation.answer Activation.give at *
    by_cases hslot : ret.slot < act.slots.size
    · by_cases hclass : act.slots.class? ret.slot = some ret.value.regClass
      · simp only [if_pos hslot, if_pos hclass, hret] at htakes ⊢
        exact htakes
      · simp only [if_pos hslot, if_neg hclass] at htakes ⊢
        exact htakes
    · -- The return is carried out, but there is no slot to take its value.
      simp only [if_neg hslot, hret] at htakes ⊢
      cases htakes
      refine .ignored ?_
      cases hclass : act.slots.class? ret.slot with
      | none => rfl
      | some cls => exact absurd (ReturnSlots.lt_size_of_class? hclass) hslot
  | @inner outcome hinner _ _ hnone =>
    cases outcome with
    | error trap => exact htakes
    | ok e =>
      have hinner' := hinner e rfl
      simp only [hnone]
      cases e with
      | give slot v last => cases hinner'
      | leave => cases hinner'
      | _ => exact htakes

end Slots

theorem Collects.map {α β γ : Type} {step : α → α → Prop} {emit : α → Option β} {x y : α}
    {l : List β} (f : β → γ) (h : Collects step emit x l y) :
    Collects step (fun z => (emit z).map f) x (l.map f) y := by
  induction h with
  | refl => exact .refl x
  | @tail y z l _ hstep ih =>
    have hmap : (l ++ (emit y).toList).map f = l.map f ++ ((emit y).map f).toList := by
      cases emit y <;> simp
    rw [hmap]
    exact .tail ih hstep

/-- An activation of a script from its start to its result, with the returns that it carried out,
in order, and the state in which it met its last instruction. -/
inductive Invocation.Returns (p : Program) (d : Dispatcher σ) (v : Invocation σ)
    (s : LoadedScript) : List Return → Activation → Result σ → Prop where
  | intro {fuel : Nat} {effectAt : Activation → Option (Except Trap Effect)}
      {first last : Activation × Ambient σ} {returns : List Return} {r : Result σ}
      (hfuel : v.fuel = fuel + 1) (hstart : Starts p d v s effectAt first)
      (hpath : Collects (Moves p.size (invoke p d fuel) v.id effectAt)
        (fun state => s.script.executed? effectAt state.1) first returns last)
      (hend : Ends p.size (invoke p d fuel) v.id effectAt last r) :
      Returns p d v s (returns ++ (s.script.executed? effectAt last.1).toList) last.1
        (leaveFrame r)

section Run

variable {p : Program} {d : Dispatcher σ} {v : Invocation σ} {s : LoadedScript}
  {effectAt : Activation → Option (Except Trap Effect)} {first last : Activation × Ambient σ}
  {fuel : Nat}

theorem ReturnSlots.Collected.shaped {r r' : ReturnSlots} {stores : List Store}
    (h : r.Collected stores r') : r.Shaped r' where
  size_eq := by rw [size, size, h.cellOf_eq]
  class?_eq := h.class?_eq

/-- An activation changes neither the number of its caller's slots nor their classes. -/
theorem Starts.shaped (hstart : Starts p d v s effectAt first)
    (hreach : Reaches p.size (invoke p d fuel) v.id effectAt first last) :
    v.slots.Shaped last.1.slots := by
  obtain ⟨stores, hpath⟩ : ∃ stores, Collects (Moves p.size (invoke p d fuel) v.id effectAt)
      (fun state => storedAt effectAt state.1) first stores last := exists_collects hreach
  have hmoved := hpath.collected (fun state => state.1.slots) fun hreach hmove =>
    takes_of_moves (fun houtcome => hstart.typed hreach houtcome) hmove
  rw [hstart.slots_eq] at hmoved
  exact hmoved.shaped

/-- A run of a script was refused, or is an activation that returns. -/
theorem Invocation.returns_of_run {r : Result σ} (hscript : p.functions[v.id]? = some (.script s))
    (h : v.run p d = .ok r) :
    (∃ e, Refuses p d v s e ∧ r.slots = v.slots ∧ ∃ x, r.outcome = .aborted x) ∨
      ∃ returns last, v.Returns p d s returns last r := by
  obtain ⟨fuel, hfuel, ⟨n, last, hnative, _⟩ | ⟨s', e, hrefuses, rfl⟩ |
    ⟨s', effectAt, first, last, r', hstart, hreach, hend, rfl⟩⟩ := Invocation.run_ok h
  · cases hscript.symm.trans hnative
  · cases hscript.symm.trans hrefuses.script
    exact .inl ⟨e, hrefuses, rfl, _, rfl⟩
  · cases hscript.symm.trans hstart.script
    obtain ⟨returns, hpath⟩ := exists_collects hreach
    exact .inr ⟨_, _, .intro hfuel hstart hpath hend⟩

/-- An invocation returns no more results than there are slots. -/
theorem Invocation.count_le {r : Result σ} (h : v.run p d = .ok r) :
    r.outcome.count ≤ v.slots.size := by
  cases houtcome : r.outcome with
  | aborted x => exact Nat.zero_le _
  | finished count =>
    obtain ⟨stores, hdelivers⟩ := Invocation.exists_delivers h houtcome
    rw [← (collected_of_delivers hdelivers).shaped.size_eq, ← houtcome]
    cases hdelivers with
    | script _ _ _ hend =>
      rw [slots_leaveFrame]
      exact Nat.le_trans (count_leaveFrame_le _) (count_le_of_ends hend)
    | native _ _ _ hend => exact count_le_of_hostEnds hend

variable {I : σ → Prop} (hd : d.Policy p I) (hI : I v.ambient.tier)

include hd hI

theorem Starts.stands (hstart : Starts p d v s effectAt first)
    (hreach : Reaches p.size (invoke p d fuel) v.id effectAt first last) :
    Stands s.script last.1 (effectAt last.1) := by
  obtain ⟨hverify, hmode, hfits, _⟩ := hstart.mode hd hI
  exact hmode.stands hverify (fits_of_reaches hmode hverify hfits hreach)

/-- What the slots of the caller hold behind a whole activation. -/
theorem collected_of_returns {returns : List Return} {act : Activation} {r : Result σ}
    (h : v.Returns p d s returns act r) :
    v.slots.Collected (returns.map Return.store) r.slots := by
  cases h with
  | @intro _ _ _ _ returns _ _ hstart hpath hend =>
    have hmoved := (hpath.map Return.store).collected (fun state => state.1.slots)
      fun hreach hmove => (hstart.stands hd hI hreach).takes
        (takes_of_moves (fun houtcome => hstart.typed hreach houtcome) hmove)
    have hlast := (hstart.stands hd hI hpath.reaches).takes
      (takes_of_ends (fun houtcome => hstart.typed hpath.reaches houtcome) hend)
    rw [← hstart.slots_eq, slots_leaveFrame, List.map_append, ← Option.toList_map]
    exact hmoved.takes hlast

/-- The number of results behind a whole activation. -/
theorem concludes_of_returns {returns : List Return} {act : Activation} {r : Result σ}
    (h : v.Returns p d s returns act r) :
    Concludes s.script v.slots.size act returns r.outcome := by
  cases h with
  | intro _ hstart hpath hend =>
    rw [outcome_leaveFrame hd hstart hpath.reaches hend,
      ← (hstart.shaped hpath.reaches).size_eq]
    exact (hstart.stands hd hI hpath.reaches).concludes hend _

end Run

/-- An invocation answers its caller by the protocol.

At every moment of an activation, in either mode and whatever functions it has called: behind the
end of the code and at a return without a value it ends with no results; of all other returns, one
for which the caller has no slot is ignored, one into a slot of its class is stored, and one into a
slot of another class aborts there and leaves all slots.

When the activation ends, each slot is of its class and, where every slot has a cell of its own,
holds the last value that this activation returned there, or else what it held.  The number of
results is that of the instruction at which the activation stood last.

Every run of a script is such an activation, unless it was refused, and no function, native ones
included, returns more results than there are slots, or any after an exception. -/
theorem return_protocol {p : Program} {d : Dispatcher σ} {I : σ → Prop} (hd : d.Policy p I)
    {v : Invocation σ} (hI : I v.ambient.tier) :
    (∀ {fuel : Nat} {s : LoadedScript} {effectAt : Activation → Option (Except Trap Effect)}
        {first : Activation × Ambient σ} {act : Activation} {amb : Ambient σ},
      Starts p d v s effectAt first →
      Reaches p.size (invoke p d fuel) v.id effectAt first (act, amb) →
      v.slots.Shaped act.slots ∧
        Answers v.slots s.script v.id act amb
          (turn p.size (invoke p d fuel) v.id effectAt act amb)) ∧
    (∀ {s : LoadedScript} {returns : List Return} {last : Activation} {r : Result σ},
      v.Returns p d s returns last r →
      v.slots.Collected (returns.map Return.store) r.slots ∧
        Concludes s.script v.slots.size last returns r.outcome) ∧
    ∀ {r : Result σ}, v.run p d = .ok r →
      (∀ {s : LoadedScript}, p.functions[v.id]? = some (.script s) →
        (∃ e, Refuses p d v s e ∧ r.slots = v.slots ∧ ∃ x, r.outcome = .aborted x) ∨
          ∃ returns last, v.Returns p d s returns last r) ∧
      r.outcome.count ≤ v.slots.size ∧
      (r.outcome.toRecord.isRaised = true → r.outcome.count = 0) := by
  refine ⟨?_, ?_, ?_⟩
  · intro fuel s effectAt first act amb hstart hreach
    have hshaped := hstart.shaped hreach
    exact ⟨hshaped, (hstart.stands hd hI hreach).answers hshaped⟩
  · intro s returns last r h
    exact ⟨collected_of_returns hd hI h, concludes_of_returns hd hI h⟩
  · intro r h
    refine ⟨fun hscript => Invocation.returns_of_run hscript h, Invocation.count_le h, ?_⟩
    intro hraised
    cases houtcome : r.outcome with
    | aborted x => rfl
    | finished count =>
      rw [houtcome] at hraised
      cases hraised

/-- A script that returns in between, twice into one slot, around a call of a script that returns
into a register, and once into a slot that nobody has. -/
def answersTwice : Script where
  name := "answers"
  code := #[.make .reti 1 7 0, .make .reti 0 3 0, .make .callK 0 0 1, .make .result 0 0 0,
    .make .ret 0 0 0, .make .reti 9 1 0, .make .reti 129 8 0]
  regs := { int := 1 }
  konst := { pointers := #[functionAddress 0] }

/-- The script, and the one that it calls. -/
def answersAroundCall : Program where
  functions := #[.script (Script.load fiveScript), .script (Script.load answersTwice)]

/-- The script is called for two integers and a double. -/
def wantsThree : Invocation Unit where
  fuel := 12
  id := 1
  args := []
  slots := .fresh [.int, .int, .float]
  memory := {}
  ambient := { tier := () }

/-- The first return is stored and the script goes on.  At its end there are two results, and the
slots hold what was returned there last. -/
theorem return_protocol_wantsThree :
    (∃ first act amb, Starts answersAroundCall .interpreting wantsThree (Script.load answersTwice)
        (interpretAt answersTwice) first ∧
      turn 2 (invoke answersAroundCall .interpreting 11) 1 (interpretAt answersTwice)
        first.1 first.2 = .on act amb ∧ act.slots.get? 1 = some (.int 7)) ∧
    ∃ r returns last, wantsThree.run answersAroundCall .interpreting = .ok r ∧
      wantsThree.Returns answersAroundCall .interpreting (Script.load answersTwice)
        returns last r ∧
      r.outcome = .finished 2 ∧
      r.slots.get? 0 = (lastStored (returns.map Return.store) 0).or (some (.int 0)) := by
  obtain ⟨hanswers, hreturned, hruns⟩ := return_protocol
    (Dispatcher.interpreting_policy answersAroundCall) (v := wantsThree) trivial
  have hverdict : (Script.load answersTwice).verdict = .ok () := by decide +kernel
  have hop : (Instr.make .reti 1 7 0).opcode? = some .reti := by decide +kernel
  refine ⟨?_, ?_⟩
  · have hstart := Starts.interpreted (p := answersAroundCall) (d := .interpreting)
      (v := wantsThree) (s := Script.load answersTwice) rfl rfl hverdict rfl
    have hreturn : ∀ frame slots memory,
        answersTwice.return? (.start frame slots memory) = some ⟨1, .int 7, false⟩ := by
      intro frame slots memory
      show (some (Instr.make .reti 1 7 0)).bind _ = _
      rw [Option.bind_some, hop]
      rfl
    exact ⟨_, _, _, hstart, (hanswers hstart .refl).2.stored (hreturn _ _ _) rfl, rfl⟩
  · have houtcome : (wantsThree.run answersAroundCall .interpreting).toOption.map (·.outcome) =
        some (.finished 2) := by
      decide +kernel
    cases hrun : wantsThree.run answersAroundCall .interpreting with
    | error st =>
      rw [hrun] at houtcome
      cases houtcome
    | ok r =>
      rw [hrun] at houtcome
      have hfinished : r.outcome = .finished 2 := Option.some.inj houtcome
      obtain ⟨_, _, _, _, haborted⟩ | ⟨returns, last, hreturns⟩ :=
        (hruns hrun).1 (s := Script.load answersTwice) rfl
      · rw [hfinished] at haborted
        cases haborted
      · have hseparate : wantsThree.slots.Separate := by
          unfold ReturnSlots.Separate
          decide
        exact ⟨r, returns, last, rfl, hreturns, hfinished,
          (hreturned hreturns).1.get?_eq hseparate 0 (by decide)⟩

end TierVm
