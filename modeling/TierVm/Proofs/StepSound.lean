import Mathlib.Data.List.Basic
import TierVm.Exec.Interpreter
import TierVm.Proofs.Accepted
import TierVm.Proofs.Registers

/-!
# Instructions of accepted scripts

One instruction of an accepted script, executed in an activation that fits the script, finds
everything it needs.  This is the step that the statements about whole runs are made of.

* `Activation.Fits` is the invariant: the activation stands in the code with the count of pending
  parameters that verification found there, and its registers and parameters are those of the
  script.
* `Effect.Sound` says of an effect that it can be carried out and leads to an activation that fits
  again: `Activation.perform_sound`.
* `Raises` lists the aborts that an instruction can raise by itself.
* `execute_sound` goes through the operations: an instruction comes out as a sound effect, as one
  of the aborts of `Raises`, or it reads memory that does not exist.
-/

namespace TierVm

open Interpreter

/-! ## The invariant -/

/-- Execution can stand at `pc` with `n` pending parameters: at an instruction that has as many in
front of it, or at the end of the code. -/
def Script.Admits (s : Script) (pc n : Nat) : Prop :=
  pc ≤ s.code.size ∧ (pc < s.code.size → n = s.pendingAt pc)

/-- A parameter that a script can have pushed: a string register is one of its own. -/
def Param.Fits (s : Script) : Param → Prop
  | .value _ => True
  | .stringRegister r => r < s.regs.of .string

/-- An activation that a script can have. -/
structure Activation.Fits (act : Activation) (s : Script) : Prop where
  admits : s.Admits act.pc act.numParam
  sizeOf_regs : ∀ cls, act.regs.sizeOf cls = s.regs.of cls
  size_params : act.params.size = s.maxParam.toNat
  params : ∀ p ∈ act.params, p.Fits s

/-- The registers that the result instructions behind a call at `pc` name. -/
def Script.targetsAt (s : Script) (pc count : Nat) : List Target :=
  (List.range count).map fun k =>
    let r := s.code.getD (pc + 1 + k) default
    ⟨.ofTag r.b, r.c.toNat⟩

/-- The instruction at `pc` is a call, and the results go to the targets. -/
def Script.CallsAt (s : Script) (pc : Nat) (targets : List Target) : Prop :=
  ∃ i op, s.code[pc]? = some i ∧ i.opcode? = some op ∧ (op = .call ∨ op = .callK) ∧
    targets = s.targetsAt pc i.c.toNat

/-- An effect that can be carried out and leads to where execution can stand. -/
def Effect.Sound (s : Script) (act : Activation) : Effect → Prop
  | .put index v => index < s.regs.of v.regClass ∧ s.Admits (act.pc + 1) act.numParam
  | .store _ _ => s.Admits (act.pc + 1) act.numParam
  | .alloc index _ => index < s.regs.of .pointer ∧ s.Admits (act.pc + 1) act.numParam
  | .param slot p =>
    slot = act.numParam ∧ slot < s.maxParam.toNat ∧ p.Fits s ∧ s.Admits (act.pc + 1) (slot + 1)
  | .give _ _ _ => s.Admits (act.pc + 1) act.numParam
  | .goto pc _ => s.Admits pc act.numParam
  | .call _ first count targets _ =>
    first + count = act.numParam ∧ act.numParam ≤ s.maxParam.toNat ∧ s.CallsAt act.pc targets ∧
      (∀ t ∈ targets, t.index < s.regs.of t.cls) ∧ s.Admits (act.pc + 1 + targets.length) first
  | .leave => True

/-- The aborts that an instruction can raise by itself.  A return raises one when the caller's slot
has another class than the value. -/
inductive Raises (s : Script) (act : Activation) (i : Instr) : Opcode → Abort → Prop where
  | load (w : Width) (o : Offset) : Raises s act i (.load w o) { reason := .readNil }
  | call : Raises s act i .call { reason := .readNil }
  | callK : Raises s act i .callK { reason := .readNil }
  | store (w : Width) (o : Offset) : Raises s act i (.store w o) { reason := .writeNil }
  | bound (index : Int32) : Raises s act i .bound { reason := .arrayOutOfBounds, arg := index }
  | boundK (index : Int32) : Raises s act i .boundK { reason := .arrayOutOfBounds, arg := index }
  | boundR (index : Int32) : Raises s act i .boundR { reason := .arrayOutOfBounds, arg := index }
  | intOp {op : IntOp} (form : Form) (hop : op = .div ∨ op = .divu ∨ op = .mod ∨ op = .modu) :
      Raises s act i (.intOp op form) { reason := .divisionByZero }
  | floatOp {op : FloatOp} (form : Form) (hop : op = .div ∨ op = .mod) :
      Raises s act i (.floatOp op form) { reason := .divisionByZero }
  | new (size : Int32) : Raises s act i .new { reason := .arrayTooLarge, arg := size }
  | newK (size : Int32) : Raises s act i .newK { reason := .arrayTooLarge, arg := size }
  | throw (object : Address) : Raises s act i .throw (.ofError (.thrown object))
  | ret {v : Value} {cls : RegClass}
      (hvalue : Interpreter.sourceValue s act (.decode i.b i.c.toNat) = .ok v)
      (hclass : act.slots.class? (i.a &&& 127).toNat = some cls) (hne : cls ≠ v.regClass) :
      Raises s act i .ret { reason := .other }
  | reti {cls : RegClass} (hclass : act.slots.class? (i.a &&& 127).toNat = some cls)
      (hne : cls ≠ .int) : Raises s act i .reti { reason := .other }

/-- What an instruction of an accepted script comes to. -/
def StepSound (s : Script) (act : Activation) (op : Opcode) (i : Instr) :
    Except Trap Effect → Prop
  | .ok e => e.Sound s act
  | .error (.abort a) => Raises s act i op a
  | .error (.stop st) => st = .badAccess

/-! ## Operands -/

section Operands

variable {s : Script} {act : Activation} {op : Opcode} {i : Instr}

/-- An operand that is there lets the instruction go on. -/
theorem StepSound.bind {α : Type} {m : Except Trap α} {f : α → Except Trap Effect}
    (hm : ∃ x, m = .ok x) (hf : ∀ x, m = .ok x → StepSound s act op i (f x)) :
    StepSound s act op i (m >>= f) := by
  obtain ⟨x, rfl⟩ := hm
  exact hf x rfl

theorem inRange_getElem? {α : Type} {xs : Array α} {k : Nat} (h : k < xs.size) :
    ∃ x, inRange xs[k]? = .ok x :=
  ⟨xs[k], by rw [Array.getElem?_eq_getElem h]; rfl⟩

namespace Activation.Fits

variable (hfit : act.Fits s) {k : Nat}

include hfit

theorem lt {cls : RegClass} (h : k < s.regs.of cls) : k < act.regs.sizeOf cls := by
  rw [hfit.sizeOf_regs]
  exact h

theorem int (h : k < s.regs.of .int) : ∃ x, act.int k = .ok x :=
  inRange_getElem? (hfit.lt h)

theorem float (h : k < s.regs.of .float) : ∃ x, act.float k = .ok x :=
  inRange_getElem? (hfit.lt h)

theorem string (h : k < s.regs.of .string) : ∃ x, act.string k = .ok x :=
  inRange_getElem? (hfit.lt h)

theorem pointer (h : k < s.regs.of .pointer) : ∃ x, act.pointer k = .ok x :=
  inRange_getElem? (hfit.lt h)

theorem value {cls : RegClass} (h : k < s.regs.of cls) : ∃ v, act.value cls k = .ok v := by
  obtain ⟨v, hv, _⟩ := Registers.get?_eq_some (hfit.lt h)
  exact ⟨v, by rw [Activation.value, hv]; rfl⟩

end Activation.Fits

/-- A constant that exists has a value. -/
theorem ConstantPool.get?_eq_some {k : ConstantPool} {cls : RegClass} {n : Nat}
    (h : n < k.sizeOf cls) : ∃ v, k.get? cls n = some v := by
  cases cls with
  | int => exact ⟨.int k.ints[n], by simp [get?, Array.getElem?_eq_getElem h]⟩
  | float => exact ⟨.float k.floats[n], by simp [get?, Array.getElem?_eq_getElem h]⟩
  | string => exact ⟨.string k.strings[n], by simp [get?, Array.getElem?_eq_getElem h]⟩
  | pointer => exact ⟨.pointer k.pointers[n], by simp [get?, Array.getElem?_eq_getElem h]⟩

theorem konst_ok {cls : RegClass} {k : Nat} (h : k < s.konst.sizeOf cls) :
    ∃ v, inRange (s.konst.get? cls k) = .ok v := by
  obtain ⟨v, hv⟩ := ConstantPool.get?_eq_some h
  exact ⟨v, by rw [hv]; rfl⟩

/-- A tagged operand that meets its requirements has a value. -/
theorem sourceValue_ok (hfit : act.Fits s) {src : Source}
    (h : (Need.ofSource src).Forall (·.Met s)) : ∃ v, sourceValue s act src = .ok v := by
  cases src with
  | nil => exact ⟨_, rfl⟩
  | reg cls k => exact hfit.value h
  | konst cls k => exact konst_ok h

/-- The parameter that a tagged operand stands for is one of the script's. -/
theorem paramOf_ok (hfit : act.Fits s) {src : Source}
    (h : (Need.ofSource src).Forall (·.Met s)) : ∃ p, paramOf s act src = .ok p ∧ p.Fits s := by
  obtain ⟨v, hv⟩ := sourceValue_ok hfit h
  unfold paramOf
  split
  · obtain ⟨x, hx⟩ := hfit.string h
    exact ⟨.stringRegister _, by rw [hx]; rfl, h⟩
  · exact ⟨.value v, by rw [hv]; rfl, trivial⟩

/-- Two operands that are there can be read one after the other. -/
theorem pair_ok {α β : Type} {m : Except Trap α} {n : Except Trap β} (hm : ∃ x, m = .ok x)
    (hn : ∃ y, n = .ok y) : ∃ z, (do return (← m, ← n)) = (.ok z : Except Trap (α × β)) := by
  obtain ⟨x, rfl⟩ := hm
  obtain ⟨y, rfl⟩ := hn
  exact ⟨(x, y), rfl⟩

theorem intInputs_ok (hfit : act.Fits s) {form : Form}
    (h : (Need.sources .int i form).Forall (·.Met s)) :
    ∃ x, intInputs s act op i form = .ok x := by
  cases form with
  | rr => exact pair_ok (hfit.int h.1) (hfit.int h.2)
  | rk => exact pair_ok (hfit.int h.1) (inRange_getElem? h.2)
  | kr => exact pair_ok (inRange_getElem? h.1) (hfit.int h.2)
  | ri => exact pair_ok (hfit.int h) ⟨_, rfl⟩

theorem intCompared_ok (hfit : act.Fits s) {form : Form} (hform : form ≠ .ri)
    (h : (Need.sources .int i form).Forall (·.Met s)) :
    ∃ x, intCompared s act i form = .ok x := by
  cases form with
  | rr => exact pair_ok (hfit.int h.1) (hfit.int h.2)
  | rk => exact pair_ok (hfit.int h.1) (inRange_getElem? h.2)
  | kr => exact pair_ok (inRange_getElem? h.1) (hfit.int h.2)
  | ri => exact absurd rfl hform

theorem floatInputs_ok (hfit : act.Fits s) {form : Form} (hform : form ≠ .ri)
    (h : (Need.sources .float i form).Forall (·.Met s)) :
    ∃ x, floatInputs s act i form = .ok x := by
  cases form with
  | rr => exact pair_ok (hfit.float h.1) (hfit.float h.2)
  | rk => exact pair_ok (hfit.float h.1) (inRange_getElem? h.2)
  | kr => exact pair_ok (inRange_getElem? h.1) (hfit.float h.2)
  | ri => exact absurd rfl hform

theorem offsetOf_ok (hfit : act.Fits s) {o : Offset} (h : (Need.offset i o).Met s) :
    ∃ x, offsetOf s act i o = .ok x := by
  cases o with
  | register => exact hfit.int h
  | konst => exact inRange_getElem? h

theorem comparedString_ok (hfit : act.Fits s) {isKonst : Bool} {k : UInt8}
    (h : (Need.ofSource (.ofCompare isKonst k)).Forall (·.Met s)) :
    ∃ x, comparedString s act isKonst k = .ok x := by
  cases isKonst with
  | true => exact inRange_getElem? h
  | false => exact hfit.string h

/-- Comparisons and operations on doubles have no immediate operand. -/
def Opcode.formEncoded : Opcode → Bool
  | .intCmp _ .ri | .floatOp _ .ri | .floatCmp _ .ri => false
  | _ => true

theorem formEncoded_of_opcode? (h : i.opcode? = some op) : op.formEncoded = true := by
  have htable : Opcode.table.all (·.opcode.formEncoded) = true := by
    decide +kernel
  rw [Instr.opcode?, Opcode.ofByte?, Opcode.row?] at h
  obtain ⟨row, hrow, rfl⟩ := Option.map_eq_some_iff.1 h
  rw [Array.all_eq_true_iff_forall_mem] at htable
  exact htable row (Array.mem_of_getElem? hrow)

end Operands

/-! ## Control -/

/-- An activation of an accepted script stands at an instruction. -/
structure StandsAt (s : Script) (act : Activation) (op : Opcode) (i : Instr) : Prop where
  accepted : s.Accepted
  fits : act.Fits s
  instr : s.code[act.pc]? = some i
  opcode : i.opcode? = some op

namespace StandsAt

variable {s : Script} {act : Activation} {op : Opcode} {i : Instr} (h : StandsAt s act op i)

include h

theorem pc_lt : act.pc < s.code.size := (Array.getElem?_eq_some_iff.1 h.instr).1

/-- The parameters pending are those that verification counted. -/
theorem numParam_eq : act.numParam = s.pendingAt act.pc := h.fits.admits.2 h.pc_lt

/-- What verification has found out about the instruction. -/
theorem checked : (needs op act.pc i).Forall (·.Met s) ∧
    s.pendingAfter act.pc act.numParam op i = .ok (s.pendingAt (act.pc + 1)) := by
  obtain ⟨op', hop', hneeds, hafter⟩ := h.accepted.instr h.instr
  rw [h.opcode] at hop'
  cases hop'
  rw [h.numParam_eq]
  exact ⟨List.forall_iff_forall_mem.2 hneeds, hafter⟩

/-- Behind an instruction that leaves the count alone, execution can go on. -/
theorem admits_next (hcount : op.countsParams = false) : s.Admits (act.pc + 1) act.numParam := by
  have hpc := h.pc_lt
  refine ⟨by omega, ?_⟩
  intro _
  rw [h.accepted.pendingAt_succ h.instr h.opcode hcount]
  exact h.numParam_eq

/-- Where a branch leads, or at the end of the code, execution can go on. -/
theorem admits_branch (hcount : op.countsParams = false) {target : Nat}
    (htarget : Script.branchTarget? act.pc i = some target) :
    s.Admits (min target s.code.size) act.numParam := by
  refine ⟨by omega, ?_⟩
  intro hlt
  have hmin : min target s.code.size = target := by omega
  rw [hmin, h.accepted.branch h.instr htarget (by omega),
    h.accepted.pendingAt_succ h.instr h.opcode hcount]
  exact h.numParam_eq

/-- A skip is sound, whichever way it goes. -/
theorem skipWhen_sound (hskips : op.skips = true) (skip : Bool) :
    (skipWhen s act skip).Sound s act := by
  have hcount : op.countsParams = false := by
    cases op <;> first | rfl | cases hskips
  have hbranch : Script.branchTarget? act.pc i = some (act.pc + 2) := by
    rw [Script.branchTarget?, h.opcode]
    cases op <;> first | rfl | cases hskips
  cases skip with
  | false => exact h.admits_next hcount
  | true => exact h.admits_branch hcount hbranch

/-- A value goes into a slot of its class, and is refused by any other. -/
theorem give_sound (hcount : op.countsParams = false) {v : Value} {last : Bool} {slot : Nat}
    (hslot : slot < act.slots.size)
    (hraises : ∀ cls, act.slots.class? slot = some cls → cls ≠ v.regClass →
      Raises s act i op { reason := .other }) :
    StepSound s act op i (act.give slot v last) := by
  rw [Activation.give]
  split
  · exact h.admits_next hcount
  · rename_i hclass
    obtain ⟨cls, hcls⟩ := ReturnSlots.class?_eq_some hslot
    apply hraises cls hcls
    intro heq
    exact hclass (by rw [hcls, heq])

/-- A parameter finds room in the parameter area. -/
theorem pushParam_sound (hop : op = .param ∨ op = .parami) {p : Param} (hp : p.Fits s) :
    StepSound s act op i (pushParam s act p) := by
  obtain ⟨hroom, hafter⟩ := Script.pendingAfter_param hop h.checked.2
  have hsize : ¬ act.params.size ≤ act.numParam := by
    rw [h.fits.size_params]
    omega
  rw [pushParam, if_neg hsize]
  refine ⟨rfl, hroom, hp, ?_, ?_⟩
  · have := h.pc_lt
    omega
  · intro _
    exact hafter.symm

end StandsAt

theorem jump_sound {s : Script} {act : Activation} {i : Instr} (h : StandsAt s act .jmp i) :
    StepSound s act .jmp i (jump s act i) := by
  have hneed : 0 ≤ jumpTarget act.pc i ∧ jumpTarget act.pc i ≤ (s.code.size : Int) := h.checked.1
  have hbranch : Script.branchTarget? act.pc i = some (jumpTarget act.pc i).toNat := by
    rw [Script.branchTarget?, h.opcode]
  have hadmits := h.admits_branch rfl hbranch
  have hmin : min (jumpTarget act.pc i).toNat s.code.size = (jumpTarget act.pc i).toNat := by
    have := hneed.2
    omega
  rw [hmin] at hadmits
  rw [jump, if_pos hneed]
  exact hadmits

/-! ## Calls -/

@[simp] theorem Script.length_targetsAt (s : Script) (pc count : Nat) :
    (s.targetsAt pc count).length = count := by
  simp [targetsAt]

/-- The targets of a call are read off the result instructions. -/
theorem resultTargets_ok {s : Script} {pc count : Nat} (h : s.resultsFollow pc count = true) :
    (List.range count).mapM (fun k => resultTarget s (pc + 1 + k)) =
      .ok (s.targetsAt pc count) := by
  apply mapM_eq_pure
  intro k hk
  obtain ⟨r, hr, _⟩ := Script.result_of_resultsFollow h (List.mem_range.1 hk)
  rw [resultTarget, hr, Array.getD_eq_getD_getElem?, hr]
  rfl

/-- The targets of a call are registers. -/
theorem Script.Accepted.targetsAt_lt {s : Script} (hs : s.Accepted) {pc count : Nat}
    (h : s.resultsFollow pc count = true) :
    ∀ t ∈ s.targetsAt pc count, t.index < s.regs.of t.cls := by
  intro t ht
  obtain ⟨k, hk, rfl⟩ := List.mem_map.1 ht
  obtain ⟨r, hr, hop⟩ := Script.result_of_resultsFollow h (List.mem_range.1 hk)
  obtain ⟨op, hop', hneeds, _⟩ := hs.instr hr
  rw [hop] at hop'
  cases hop'
  simp only [Array.getD_eq_getD_getElem?, hr, Option.getD_some]
  exact (List.forall_iff_forall_mem.2 hneeds).2

/-- A call takes its parameters off the end of those pending, and its results follow it. -/
theorem call_sound {s : Script} {act : Activation} {op : Opcode} {i : Instr}
    (h : StandsAt s act op i) (hop : op = .call ∨ op = .callK) (callee : Address) :
    StepSound s act op i (call s act callee i) := by
  obtain ⟨hwanted, _, hfollow, hafter⟩ := Script.pendingAfter_call hop h.checked.2
  have hle : act.numParam ≤ s.maxParam.toNat := by
    rw [h.numParam_eq]
    exact h.accepted.pendingAt_le (by have := h.pc_lt; omega)
  rw [call]
  split
  · rcases hop with rfl | rfl
    · exact .call
    · exact .callK
  · rw [if_neg (by omega), resultTargets_ok hfollow]
    have hcalls : s.CallsAt act.pc (s.targetsAt act.pc i.c.toNat) :=
      ⟨i, op, h.instr, h.opcode, hop, rfl⟩
    refine ⟨by omega, hle, hcalls, h.accepted.targetsAt_lt hfollow, ?_, ?_⟩
    · rw [Script.length_targetsAt]
      exact Script.Accepted.results_le hfollow h.pc_lt
    · intro _
      rw [Script.length_targetsAt, h.accepted.pendingAt_results hfollow (Nat.le_refl _), hafter]

/-- A call that is made takes the last of the parameters pending. -/
theorem call_ok {s : Script} {act : Activation} {op : Opcode} {i : Instr}
    (h : StandsAt s act op i) (hop : op = .call ∨ op = .callK) {callee : Address} {e : Effect}
    (he : call s act callee i = .ok e) :
    i.b.toNat ≤ act.numParam ∧
      e = .call callee (act.numParam - i.b.toNat) i.b.toNat (s.targetsAt act.pc i.c.toNat)
        .registers := by
  obtain ⟨hwanted, _, hfollow, _⟩ := Script.pendingAfter_call hop h.checked.2
  refine ⟨hwanted, ?_⟩
  rw [call] at he
  split at he
  · cases he
  · rw [if_neg (by omega), resultTargets_ok hfollow] at he
    cases he
    rfl

/-! ## All operations -/

/-- A binary operation on integers fails only where it divides. -/
theorem IntOp.divides_of_eval_none {op : IntOp} {l r : Int32} (h : op.eval l r = none) :
    op = .div ∨ op = .divu ∨ op = .mod ∨ op = .modu := by
  cases op <;> simp_all [IntOp.eval]

theorem FloatOp.divides_of_eval_none {op : FloatOp} {l r : Float} (h : op.eval l r = none) :
    op = .div ∨ op = .mod := by
  cases op <;> simp_all [FloatOp.eval]


theorem ret_sound {s : Script} {act : Activation} {i : Instr} (h : StandsAt s act .ret i) :
    StepSound s act .ret i (giveBack s act .ret i) := by
  have hsource : (Need.ofSource (.decode i.b i.c.toNat)).Forall (·.Met s) :=
    ((List.forall_cons _ _ _).1 h.checked.1).2
  show StepSound s act .ret i
    (if (i.a &&& 127).toNat < act.slots.size then
      sourceValue s act (.decode i.b i.c.toNat) >>= fun v =>
        act.give (i.a &&& 127).toNat v (!clearIn finalBit i.a)
    else .ok (.give (i.a &&& 127).toNat none (!clearIn finalBit i.a)))
  split
  · rename_i hslot
    refine .bind (sourceValue_ok h.fits hsource) fun v hv => ?_
    exact h.give_sound rfl hslot fun cls hcls hne => .ret hv hcls hne
  · exact h.admits_next rfl

theorem reti_sound {s : Script} {act : Activation} {i : Instr} (h : StandsAt s act .reti i) :
    StepSound s act .reti i (giveBack s act .reti i) := by
  show StepSound s act .reti i
    (if (i.a &&& 127).toNat < act.slots.size then
      act.give (i.a &&& 127).toNat (.int i.bcSigned.toInt32) (!clearIn finalBit i.a)
    else .ok (.give (i.a &&& 127).toNat none (!clearIn finalBit i.a)))
  split
  · rename_i hslot
    exact h.give_sound rfl hslot fun cls hcls hne => .reti hcls hne
  · exact h.admits_next rfl

section Families

variable {s : Script} {act : Activation} {op : Opcode} {i : Instr} (h : StandsAt s act op i)

include h

theorem checkBound_sound (hcount : op.countsParams = false) {index limit : Int32}
    (hraises : Raises s act i op { reason := .arrayOutOfBounds, arg := index }) :
    StepSound s act op i (act.checkBound index limit) := by
  rw [Activation.checkBound]
  split
  · exact hraises
  · exact h.admits_next hcount

theorem alloc_sound (hcount : op.countsParams = false) {index : Nat} {size : Int32}
    (hindex : index < s.regs.of .pointer)
    (hraises : Raises s act i op { reason := .arrayTooLarge, arg := size }) :
    StepSound s act op i (Activation.alloc index size) := by
  rw [Activation.alloc]
  split
  · exact ⟨hindex, h.admits_next hcount⟩
  · exact hraises

theorem convert_sound (hcount : op.countsParams = false) {kind : Cast} {dst src : Nat}
    (hdst : dst < s.regs.of kind.target) (hsrc : src < s.regs.of kind.source) :
    StepSound s act op i (act.convert kind dst src) := by
  cases kind with
  | intToFloat | uintToFloat | intToString | uintToString =>
    exact .bind (h.fits.int hsrc) fun _ _ => ⟨hdst, h.admits_next hcount⟩
  | floatToInt | floatToUint | floatToString =>
    exact .bind (h.fits.float hsrc) fun _ _ => ⟨hdst, h.admits_next hcount⟩
  | stringToInt | stringToFloat =>
    exact .bind (h.fits.string hsrc) fun _ _ => ⟨hdst, h.admits_next hcount⟩

end Families

theorem Width.regClass_decode (w : Width) (bytes : List UInt8) :
    (w.decode bytes).regClass = w.regClass := by
  cases w <;> rfl

theorem load_sound {s : Script} {act : Activation} {w : Width} {o : Offset} {i : Instr}
    (h : StandsAt s act (.load w o) i) :
    StepSound s act (.load w o) i (execute s act (.load w o) i) := by
  obtain ⟨ha, hb, hc⟩ := h.checked.1
  refine .bind (h.fits.pointer hb) fun base _ => .bind (offsetOf_ok h.fits hc) fun offset _ => ?_
  rw [Activation.load]
  split
  · exact .load w o
  · split
    · refine ⟨?_, h.admits_next rfl⟩
      rw [Width.regClass_decode]
      exact ha
    · rfl

theorem store_sound {s : Script} {act : Activation} {w : Width} {o : Offset} {i : Instr}
    (h : StandsAt s act (.store w o) i) :
    StepSound s act (.store w o) i (execute s act (.store w o) i) := by
  obtain ⟨ha, hb, hc⟩ := h.checked.1
  refine .bind (h.fits.pointer ha) fun base _ => .bind (offsetOf_ok h.fits hc) fun offset _ =>
    .bind (h.fits.value hb) fun v _ => ?_
  rw [Activation.store]
  split
  · exact .store w o
  · exact h.admits_next rfl

theorem intOp_sound {s : Script} {act : Activation} {o : IntOp} {form : Form} {i : Instr}
    (h : StandsAt s act (.intOp o form) i) :
    StepSound s act (.intOp o form) i (execute s act (.intOp o form) i) := by
  have hneeds := (List.forall_cons _ _ _).1 h.checked.1
  apply StepSound.bind (intInputs_ok h.fits hneeds.2)
  rintro ⟨l, r⟩ _
  cases heval : o.eval l r with
  | some x =>
    simp only [heval]
    exact ⟨hneeds.1, h.admits_next rfl⟩
  | none =>
    simp only [heval]
    exact .intOp form (IntOp.divides_of_eval_none heval)

theorem floatOp_sound {s : Script} {act : Activation} {o : FloatOp} {form : Form} {i : Instr}
    (h : StandsAt s act (.floatOp o form) i) (hform : form ≠ .ri) :
    StepSound s act (.floatOp o form) i (execute s act (.floatOp o form) i) := by
  have hneeds := (List.forall_cons _ _ _).1 h.checked.1
  apply StepSound.bind (floatInputs_ok h.fits hform hneeds.2)
  rintro ⟨l, r⟩ _
  cases heval : o.eval l r with
  | some x =>
    simp only [heval]
    exact ⟨hneeds.1, h.admits_next rfl⟩
  | none =>
    simp only [heval]
    exact .floatOp form (FloatOp.divides_of_eval_none heval)

/-- Every operation of an accepted script finds what it needs. -/
theorem execute_sound {s : Script} {act : Activation} {op : Opcode} {i : Instr}
    (h : StandsAt s act op i) : StepSound s act op i (execute s act op i) := by
  have hneeds := h.checked.1
  have hform := formEncoded_of_opcode? h.opcode
  cases op with
  | nop => exact h.admits_next rfl
  | result => exact h.admits_next rfl
  | jmp => exact jump_sound h
  | test => exact .bind (h.fits.int hneeds) fun _ _ => h.skipWhen_sound rfl _
  | testn => exact .bind (h.fits.int hneeds) fun _ _ => h.skipWhen_sound rfl _
  | ret =>
    show StepSound s act .ret i (if i.b = nilTag then .ok .leave else giveBack s act .ret i)
    split
    · trivial
    · exact ret_sound h
  | reti => exact reti_sound h
  | throw =>
    simp only [execute]
    simp only [needs] at hneeds
    split at hneeds
    · rename_i ha
      rw [if_pos ha]
      exact .bind (h.fits.pointer hneeds) fun object _ => .throw object
    · rename_i ha
      rw [if_neg ha]
      split at hneeds
      · exact .bind (inRange_getElem? hneeds) fun object _ => .throw object
      · cases hneeds
  | bound =>
    exact .bind (h.fits.int hneeds) fun index _ => checkBound_sound h rfl (.bound index)
  | boundK =>
    exact .bind (h.fits.int hneeds.1) fun index _ => .bind (inRange_getElem? hneeds.2) fun _ _ =>
      checkBound_sound h rfl (.boundK index)
  | boundR =>
    exact .bind (h.fits.int hneeds.1) fun index _ => .bind (h.fits.int hneeds.2) fun _ _ =>
      checkBound_sound h rfl (.boundR index)
  | li => exact ⟨hneeds, h.admits_next rfl⟩
  | lk | lkf | lks | lkp =>
    exact .bind (inRange_getElem? hneeds.2) fun _ _ => ⟨hneeds.1, h.admits_next rfl⟩
  | load w o => exact load_sound h
  | store w o => exact store_sound h
  | mov => exact .bind (h.fits.int hneeds.2) fun _ _ => ⟨hneeds.1, h.admits_next rfl⟩
  | movf => exact .bind (h.fits.float hneeds.2) fun _ _ => ⟨hneeds.1, h.admits_next rfl⟩
  | movs => exact .bind (h.fits.string hneeds.2) fun _ _ => ⟨hneeds.1, h.admits_next rfl⟩
  | mova => exact .bind (h.fits.pointer hneeds.2) fun _ _ => ⟨hneeds.1, h.admits_next rfl⟩
  | cast =>
    simp only [execute]
    simp only [needs] at hneeds
    split
    · rename_i kind hkind
      rw [hkind] at hneeds
      exact convert_sound h rfl hneeds.1 hneeds.2
    · rename_i hkind
      rw [hkind] at hneeds
      cases hneeds
  | param =>
    have hsource : (Need.ofSource (.decode i.a i.bc.toNat)).Forall (·.Met s) :=
      ((List.forall_cons _ _ _).1 hneeds).2
    obtain ⟨p, hp, hfits⟩ := paramOf_ok h.fits hsource
    refine .bind ⟨p, hp⟩ fun q hq => h.pushParam_sound (.inl rfl) ?_
    rw [hp] at hq
    cases hq
    exact hfits
  | parami => exact h.pushParam_sound (.inr rfl) trivial
  | call => exact .bind (h.fits.pointer hneeds) fun callee _ => call_sound h (.inl rfl) callee
  | callK => exact .bind (inRange_getElem? hneeds) fun callee _ => call_sound h (.inr rfl) callee
  | new =>
    exact .bind (h.fits.int hneeds.2) fun size _ => alloc_sound h rfl hneeds.1 (.new size)
  | newK =>
    exact .bind (inRange_getElem? hneeds.2) fun size _ => alloc_sound h rfl hneeds.1 (.newK size)
  | concat =>
    exact .bind (h.fits.string hneeds.2.1) fun _ _ => .bind (h.fits.string hneeds.2.2) fun _ _ =>
      ⟨hneeds.1, h.admits_next rfl⟩
  | lens => exact .bind (h.fits.string hneeds.2) fun _ _ => ⟨hneeds.1, h.admits_next rfl⟩
  | cmps =>
    obtain ⟨hl, hr⟩ := List.forall_append.1 ((List.forall_cons _ _ _).1 hneeds).2
    exact .bind (comparedString_ok h.fits hl) fun _ _ =>
      .bind (comparedString_ok h.fits hr) fun _ _ => h.skipWhen_sound rfl _
  | intOp o form => exact intOp_sound h
  | abs | neg | not =>
    exact .bind (h.fits.int hneeds.2) fun _ _ => ⟨hneeds.1, h.admits_next rfl⟩
  | sext => exact .bind (h.fits.int hneeds.2.1) fun _ _ => ⟨hneeds.1, h.admits_next rfl⟩
  | intCmp cmp form =>
    have hri : form ≠ .ri := by
      rintro rfl
      cases hform
    exact .bind (intCompared_ok h.fits hri hneeds) fun _ _ => h.skipWhen_sound rfl _
  | floatOp o form =>
    have hri : form ≠ .ri := by
      rintro rfl
      cases hform
    exact floatOp_sound h hri
  | flop => exact .bind (h.fits.float hneeds.2.1) fun _ _ => ⟨hneeds.1, h.admits_next rfl⟩
  | floatCmp cmp form =>
    have hri : form ≠ .ri := by
      rintro rfl
      cases hform
    exact .bind (floatInputs_ok h.fits hri hneeds) fun _ _ => h.skipWhen_sound rfl _
  | addaRR =>
    exact .bind (h.fits.pointer hneeds.2.1) fun _ _ => .bind (h.fits.int hneeds.2.2) fun _ _ =>
      ⟨hneeds.1, h.admits_next rfl⟩
  | addaRK =>
    exact .bind (h.fits.pointer hneeds.2.1) fun _ _ =>
      .bind (inRange_getElem? hneeds.2.2) fun _ _ => ⟨hneeds.1, h.admits_next rfl⟩
  | suba =>
    exact .bind (h.fits.pointer hneeds.2.1) fun _ _ =>
      .bind (h.fits.pointer hneeds.2.2) fun _ _ => ⟨hneeds.1, h.admits_next rfl⟩
  | eqaR =>
    exact .bind (h.fits.pointer hneeds.1) fun _ _ => .bind (h.fits.pointer hneeds.2) fun _ _ =>
      h.skipWhen_sound rfl _
  | eqaK =>
    exact .bind (h.fits.pointer hneeds.1) fun _ _ => .bind (inRange_getElem? hneeds.2) fun _ _ =>
      h.skipWhen_sound rfl _

/-- One instruction of an accepted script, decoded on the way. -/
theorem step_sound {s : Script} {act : Activation} {op : Opcode} {i : Instr}
    (h : StandsAt s act op i) : StepSound s act op i (step s act i) := by
  rw [step, h.opcode]
  exact execute_sound h

/-- In an activation that fits its accepted script, the instruction at hand is known. -/
theorem Activation.Fits.standsAt {s : Script} {act : Activation} {i : Instr} (hs : s.Accepted)
    (hfit : act.Fits s) (hi : s.code[act.pc]? = some i) : ∃ op, StandsAt s act op i := by
  obtain ⟨op, hop, _⟩ := hs.instr hi
  exact ⟨op, hs, hfit, hi, hop⟩

/-! ## Carrying effects out -/

/-- What follows a sound effect fits the script; behind a call, whatever the callee has done. -/
def Step.Sound (s : Script) : Step → Prop
  | .next act _ => act.Fits s
  | .call act _ _ _ targets => ∀ results memory, (act.resume targets results memory).Fits s
  | .leave _ _ => True

/-- What carrying out a sound effect comes to.  It stops where memory does not exist or is used
up, never for an index. -/
def PerformSound (s : Script) : Except Stop Step → Prop
  | .ok step => step.Sound s
  | .error st => st = .badAccess ∨ st = .outOfMemory

section Perform

variable {s : Script} {act : Activation}

theorem put?_fits (hfit : act.Fits s) {index : Nat} {v : Value} (h : index < s.regs.of v.regClass) :
    ∃ regs, act.regs.put? index v = some regs ∧ ∀ cls, regs.sizeOf cls = s.regs.of cls := by
  obtain ⟨regs, hregs⟩ := Registers.put?_eq_some (hfit.lt h)
  refine ⟨regs, hregs, ?_⟩
  intro cls
  rw [Registers.sizeOf_put? hregs, hfit.sizeOf_regs]

/-- The parameters of a call can be read, one for each slot: string parameters are registers of the
script. -/
theorem arguments_eq_some (hfit : act.Fits s) (targets : List Target) {first count : Nat}
    (h : first + count ≤ s.maxParam.toNat) :
    ∃ args, act.arguments targets first count = some args ∧ args.length = count ∧
      ∀ k < count, (act.params[first + k]?).bind (act.argument targets) = args[k]? := by
  have harg : ∀ k ∈ List.range count,
      (act.params[first + k]?).bind (act.argument targets) =
        pure (((act.params[first + k]?).bind (act.argument targets)).getD default) := by
    intro k hk
    have hlt : first + k < act.params.size := by
      rw [hfit.size_params]
      have := List.mem_range.1 hk
      omega
    rw [Array.getElem?_eq_getElem hlt, Option.bind_some]
    have hp := hfit.params _ (Array.getElem_mem hlt)
    cases hparam : act.params[first + k] with
    | value v => rfl
    | stringRegister r =>
      rw [hparam] at hp
      have hr : r < act.regs.strings.size := hfit.lt hp
      rw [Activation.argument, Array.getElem?_eq_getElem hr]
      rfl
  refine ⟨_, mapM_eq_pure harg, by simp, ?_⟩
  intro k hk
  rw [harg k (List.mem_range.2 hk), List.getElem?_map, List.getElem?_range hk]
  rfl

theorem place_error {m : Memory} {size : Nat} {st : Stop} (h : m.place size = .error st) :
    st = .outOfMemory := by
  simp only [Memory.place] at h
  split_ifs at h
  cases h
  rfl

/-- A sound effect is carried out without an index out of range, and leads to an activation that
fits again. -/
theorem perform_sound (hfit : act.Fits s) {e : Effect} (he : e.Sound s act) :
    PerformSound s (act.perform e) := by
  cases e with
  | put index v =>
    obtain ⟨regs, hregs, hsizes⟩ := put?_fits hfit he.1
    simp only [Activation.perform, hregs]
    exact ⟨he.2, hsizes, hfit.size_params, hfit.params⟩
  | store address bytes =>
    simp only [Activation.perform]
    split
    · exact ⟨he, hfit.sizeOf_regs, hfit.size_params, hfit.params⟩
    · exact .inl rfl
  | alloc index size =>
    simp only [Activation.perform]
    split
    · rename_i hplace
      exact .inr (place_error hplace)
    · rename_i p memory _
      have hindex : index < s.regs.of (Value.pointer p).regClass := he.1
      obtain ⟨regs, hregs, hsizes⟩ := put?_fits hfit hindex
      simp only [hregs]
      exact ⟨he.2, hsizes, hfit.size_params, hfit.params⟩
  | param slot p =>
    obtain ⟨_, hslot, hp, hnext⟩ := he
    simp only [Activation.perform]
    rw [if_pos (by rw [hfit.size_params]; exact hslot)]
    refine ⟨hnext, hfit.sizeOf_regs, ?_, ?_⟩
    · show (act.params.setIfInBounds slot p).size = s.maxParam.toNat
      rw [Array.size_setIfInBounds, hfit.size_params]
    · intro q hq
      rcases Array.mem_or_eq_of_mem_setIfInBounds hq with hq | rfl
      · exact hfit.params q hq
      · exact hp
  | give slot v last =>
    cases last with
    | true => trivial
    | false => exact ⟨he, hfit.sizeOf_regs, hfit.size_params, hfit.params⟩
  | goto pc backward => exact ⟨he, hfit.sizeOf_regs, hfit.size_params, hfit.params⟩
  | call callee first count targets cells =>
    obtain ⟨hfirst, hmax, _, htargets, hnext⟩ := he
    have hregs : ∀ t ∈ targets, t.index < act.regs.sizeOf t.cls := by
      intro t ht
      exact hfit.lt (htargets t ht)
    obtain ⟨slots, hslots, _⟩ := Activation.callSlots_eq_some cells hregs
    have hroom : first + count ≤ s.maxParam.toNat := by omega
    obtain ⟨args, hargs, _⟩ := arguments_eq_some hfit targets hroom
    simp only [Activation.perform, hslots, hargs]
    intro results memory
    refine ⟨hnext, ?_, hfit.size_params, hfit.params⟩
    intro cls
    show (Activation.receive results targets.zipIdx act.regs).sizeOf cls = s.regs.of cls
    rw [Activation.sizeOf_receive, hfit.sizeOf_regs]
  | leave => trivial

end Perform

end TierVm
