import Mathlib.Data.List.Basic
import TierVm.Proofs.Policies

/-!
# Both ways refuse the same scripts

Interpretation looks at the verdict of verification, and compilation verifies before it lowers.
Lowering has errors of its own, for operands, labels, parameters and results that are out of range.
This module shows that they are dead, so that verification alone decides which scripts run.

* Operands.  What an instruction needs is there, so that lowering finds it.
* One instruction.  `lowerOp_found` has one case for each operation, and `lowerFrom_found` is the
  induction over the code.
* Refusals.  `verify_of_interpret`: the interpreter raises a defect, of the script itself and in
  front of any activation, only if verification reports it.
* `refused_alike` is the result.
-/

namespace TierVm

open Lowering Lowered

/-! ## Operands -/

section Operands

variable {s : Script} {cls : RegClass} {k : Nat} {i : Instr}

theorem useReg_eq (h : k < s.regs.of cls) : useReg s cls k = .ok k := if_pos h

theorem regArg_eq {α : Type} (h : k < s.regs.of cls) :
    regArg (α := α) s cls k = .ok (.reg k) := by
  rw [regArg, useReg_eq h]
  rfl

theorem immArg_eq {α : Type} {pool : Array α} (h : k < pool.size) :
    immArg s pool k = .ok (.imm pool[k]) := by
  rw [immArg, useAt, Array.getElem?_eq_getElem h]
  rfl

theorem operand_found {src : Source} (h : (Need.ofSource src).Forall (·.Met s)) :
    ∃ v, operand s src = .ok v := by
  cases src with
  | nil => exact ⟨_, rfl⟩
  | reg cls k =>
    cases cls <;>
    · rw [operand, regArg_eq h]
      exact ⟨_, rfl⟩
  | konst cls k =>
    cases cls <;>
    · rw [operand, immArg_eq h]
      exact ⟨_, rfl⟩

theorem offsetArg_found {o : Offset} (h : (Need.offset i o).Met s) :
    ∃ x, offsetArg s i o = .ok x := by
  cases o with
  | register => exact ⟨_, regArg_eq h⟩
  | konst => exact ⟨_, immArg_eq h⟩

theorem comparedString_found {isKonst : Bool} {b : UInt8}
    (h : (Need.ofSource (.ofCompare isKonst b)).Forall (·.Met s)) :
    ∃ x, comparedString s isKonst b = .ok x := by
  cases isKonst with
  | true => exact ⟨_, immArg_eq h⟩
  | false => exact ⟨_, regArg_eq h⟩

/-- The inputs of a binary operation are found.  The form with an immediate is that of operations
which have one. -/
theorem binary_found {α : Type} (pool : Array α) {form : Form} (immediate : Option α)
    (hpool : pool.size = s.konst.sizeOf cls) (hform : form = .ri → immediate.isSome = true)
    (h : (Need.sources cls i form).Forall (·.Met s)) :
    ∃ l r, binary s cls pool i form immediate = .ok (l, r) := by
  cases form with
  | rr =>
    simp only [binary, regArg_eq h.1, regArg_eq h.2]
    exact ⟨_, _, rfl⟩
  | rk =>
    rw [binary, regArg_eq h.1, immArg_eq (hpool ▸ h.2)]
    exact ⟨_, _, rfl⟩
  | kr =>
    rw [binary, regArg_eq h.2, immArg_eq (hpool ▸ h.1)]
    exact ⟨_, _, rfl⟩
  | ri =>
    obtain ⟨x, rfl⟩ := Option.isSome_iff_exists.1 (hform rfl)
    rw [binary, regArg_eq h]
    exact ⟨_, _, rfl⟩

end Operands

/-! ## Instructions -/

/-- The labels that an operation names. -/
def Lowered.Op.labels : Op → List Nat
  | .jump target => [target]
  | .branch _ yes no => [yes, no]
  | _ => []

/-- Lowering comes to an operation whose labels lie in the code or just behind it. -/
def Lowers (s : Script) (m : Except CompileError Op) : Prop :=
  ∃ o, m = .ok o ∧ ∀ l ∈ o.labels, l ≤ s.code.size

section Instructions

variable {s : Script} {pc pending : Nat} {i : Instr} {op : Opcode}

theorem skipLabel_le : skipLabel s pc ≤ s.code.size := Nat.min_le_right ..

/-- A branch over the next instruction. -/
theorem branch_labels (hpc : pc < s.code.size) {test : Test} :
    ∀ l ∈ (Op.branch test (skipLabel s pc) (pc + 1)).labels, l ≤ s.code.size := by
  have hskip : skipLabel s pc ≤ s.code.size := skipLabel_le
  simp [Op.labels]
  omega

theorem compareSkip_labels (hpc : pc < s.code.size) {test : Test} :
    ∀ l ∈ (compareSkip s pc i test).labels, l ≤ s.code.size := by
  have hskip : skipLabel s pc ≤ s.code.size := skipLabel_le
  unfold compareSkip
  split
  · exact branch_labels hpc
  · simp [Op.labels]
    omega

/-- A call that verification accepted. -/
theorem callOp_found (hs : s.Accepted) {after : Nat} (hop : op = .call ∨ op = .callK)
    (hafter : s.pendingAfter pc pending op i = .ok after) (callee : Arg Address) :
    Lowers s (callOp s pc pending i callee) := by
  obtain ⟨hwanted, hreturns, hfollow, _⟩ := Script.pendingAfter_call hop hafter
  rw [callOp, if_neg (by omega), if_neg (by omega), loweredTargets_ok hs hfollow]
  exact ⟨_, rfl, List.forall_mem_nil _⟩

theorem nextParam_found {after : Nat} (hop : op = .param ∨ op = .parami)
    (hafter : s.pendingAfter pc pending op i = .ok after) :
    nextParam s pc pending = .ok pending :=
  if_pos (Script.pendingAfter_param hop hafter).1

/-- An instruction that verification accepted is lowered. -/
theorem lowerOp_found (hs : s.Accepted) {after : Nat} (hi : s.code[pc]? = some i)
    (hop : i.opcode? = some op) (h : (needs op pc i).Forall (·.Met s))
    (hafter : s.pendingAfter pc pending op i = .ok after) :
    Lowers s (lowerOp s pc pending op i) := by
  have hpc : pc < s.code.size := (Array.getElem?_eq_some_iff.1 hi).1
  have hform := formEncoded_of_opcode? hop
  cases op with
  | nop | result | reti => exact ⟨_, rfl, List.forall_mem_nil _⟩
  | jmp =>
    have hlabel : label s (jumpTarget pc i) = .ok (jumpTarget pc i).toNat := if_pos h
    rw [lowerOp, hlabel]
    refine ⟨_, rfl, ?_⟩
    have hle := h.2
    simp [Op.labels]
    omega
  | test | testn =>
    rw [lowerOp, useReg_eq h]
    exact ⟨_, rfl, branch_labels hpc⟩
  | ret =>
    simp only [lowerOp]
    split
    · exact ⟨_, rfl, List.forall_mem_nil _⟩
    · obtain ⟨v, hv⟩ := operand_found ((List.forall_cons _ _ _).1 h).2
      rw [hv]
      exact ⟨_, rfl, List.forall_mem_nil _⟩
  | throw =>
    simp only [needs] at h
    simp only [lowerOp]
    split at h
    · rename_i hmode
      rw [if_pos hmode, regArg_eq h]
      exact ⟨_, rfl, List.forall_mem_nil _⟩
    · rename_i hmode
      split at h
      · rw [if_neg hmode, immArg_eq h]
        exact ⟨_, rfl, List.forall_mem_nil _⟩
      · cases h
  | bound | li =>
    rw [lowerOp, useReg_eq h]
    exact ⟨_, rfl, List.forall_mem_nil _⟩
  | boundK | lk | lkf | lks | lkp | newK =>
    rw [lowerOp, useReg_eq h.1, immArg_eq h.2]
    exact ⟨_, rfl, List.forall_mem_nil _⟩
  | boundR | mov | movf | movs | mova | new =>
    rw [lowerOp, useReg_eq h.1, regArg_eq h.2]
    exact ⟨_, rfl, List.forall_mem_nil _⟩
  | load w o | store w o =>
    obtain ⟨x, hx⟩ := offsetArg_found h.2.2
    rw [lowerOp, useReg_eq h.1, useReg_eq h.2.1, hx]
    exact ⟨_, rfl, List.forall_mem_nil _⟩
  | cast =>
    cases hkind : Cast.ofByte? i.c with
    | none =>
      simp only [needs, hkind] at h
      cases h
    | some kind =>
      simp only [needs, hkind] at h
      simp only [lowerOp, hkind, useReg_eq h.1, useReg_eq h.2]
      exact ⟨_, rfl, List.forall_mem_nil _⟩
  | param =>
    obtain ⟨v, hv⟩ := operand_found ((List.forall_cons _ _ _).1 h).2
    rw [lowerOp, hv, nextParam_found (.inl rfl) hafter]
    exact ⟨_, rfl, List.forall_mem_nil _⟩
  | parami =>
    rw [lowerOp, nextParam_found (.inr rfl) hafter]
    exact ⟨_, rfl, List.forall_mem_nil _⟩
  | call =>
    rw [lowerOp, regArg_eq h]
    exact callOp_found hs (.inl rfl) hafter _
  | callK =>
    rw [lowerOp, immArg_eq h]
    exact callOp_found hs (.inr rfl) hafter _
  | concat | suba =>
    rw [lowerOp, useReg_eq h.1, useReg_eq h.2.1, useReg_eq h.2.2]
    exact ⟨_, rfl, List.forall_mem_nil _⟩
  | lens | abs | neg | not =>
    rw [lowerOp, useReg_eq h.1, useReg_eq h.2]
    exact ⟨_, rfl, List.forall_mem_nil _⟩
  | sext | flop =>
    rw [lowerOp, useReg_eq h.1, useReg_eq h.2.1]
    exact ⟨_, rfl, List.forall_mem_nil _⟩
  | cmps =>
    have hcompared := List.forall_append.1 ((List.forall_cons _ _ _).1 h).2
    obtain ⟨l, hl⟩ := comparedString_found hcompared.1
    obtain ⟨r, hr⟩ := comparedString_found hcompared.2
    rw [lowerOp, hl, hr]
    exact ⟨_, rfl, compareSkip_labels hpc⟩
  | intOp o form =>
    obtain ⟨ha, hsources⟩ := (List.forall_cons _ _ _).1 h
    obtain ⟨l, r, hlr⟩ := binary_found s.konst.ints
      (some ((Opcode.intOp o form).immediate i.c)) rfl (fun _ => rfl) hsources
    rw [lowerOp, hlr, useReg_eq ha]
    exact ⟨_, rfl, List.forall_mem_nil _⟩
  | intCmp cmp form =>
    obtain ⟨l, r, hlr⟩ := binary_found s.konst.ints none rfl
      (by rintro rfl; cases hform) h
    rw [lowerOp, hlr]
    exact ⟨_, rfl, compareSkip_labels hpc⟩
  | floatOp o form =>
    obtain ⟨ha, hsources⟩ := (List.forall_cons _ _ _).1 h
    obtain ⟨l, r, hlr⟩ := binary_found s.konst.floats none rfl
      (by rintro rfl; cases hform) hsources
    rw [lowerOp, hlr, useReg_eq ha]
    exact ⟨_, rfl, List.forall_mem_nil _⟩
  | floatCmp cmp form =>
    obtain ⟨l, r, hlr⟩ := binary_found s.konst.floats none rfl
      (by rintro rfl; cases hform) h
    rw [lowerOp, hlr]
    exact ⟨_, rfl, compareSkip_labels hpc⟩
  | addaRR =>
    rw [lowerOp, useReg_eq h.1, useReg_eq h.2.1, regArg_eq h.2.2]
    exact ⟨_, rfl, List.forall_mem_nil _⟩
  | addaRK =>
    rw [lowerOp, useReg_eq h.1, useReg_eq h.2.1, immArg_eq h.2.2]
    exact ⟨_, rfl, List.forall_mem_nil _⟩
  | eqaR =>
    rw [lowerOp, regArg_eq h.1, regArg_eq h.2]
    exact ⟨_, rfl, compareSkip_labels hpc⟩
  | eqaK =>
    rw [lowerOp, regArg_eq h.1, immArg_eq h.2]
    exact ⟨_, rfl, compareSkip_labels hpc⟩

end Instructions

/-! ## The pass over the code -/

/-- Verified instructions from an index on are lowered. -/
theorem lowerFrom_found {s : Script} (hs : s.Accepted) {is : List Instr} {pc : Nat}
    (his : ∀ k, is[k]? = s.code[pc + k]?) :
    ∃ ops, lowerFrom s is pc (s.pendingAt pc) = .ok ops ∧
      ∀ o ∈ ops, ∀ l ∈ o.labels, l ≤ s.code.size := by
  induction is generalizing pc with
  | nil => exact ⟨[], rfl, nofun⟩
  | cons i rest ih =>
    have hi : s.code[pc]? = some i := (his 0).symm
    have hrest : ∀ k, rest[k]? = s.code[pc + 1 + k]? := by
      intro k
      have hk := his (k + 1)
      rwa [List.getElem?_cons_succ, show pc + (k + 1) = pc + 1 + k by omega] at hk
    obtain ⟨op, hop, hneeds, hafter⟩ := hs.instr hi
    obtain ⟨o, ho, hlabels⟩ :=
      lowerOp_found hs hi hop (List.forall_iff_forall_mem.2 hneeds) hafter
    obtain ⟨ops, hops, hall⟩ := ih hrest
    refine ⟨o :: ops, ?_, List.forall_mem_cons.2 ⟨hlabels, hall⟩⟩
    simp only [lowerFrom, hop, ho, pendingAfter_eq hafter, hops]

/-- A verified script is lowered, and every label that its operations name is one of the code. -/
theorem lowerCode_found {s : Script} (hverify : s.verify = .ok ()) :
    ∃ ops, lowerCode s = .ok ops ∧ ∀ o ∈ ops, ∀ l ∈ o.labels, l ≤ s.code.size := by
  have hs := Script.accepted_of_verify hverify
  have hcode : ∀ k, s.code.toList[k]? = s.code[0 + k]? := by simp
  obtain ⟨ops, hops, hlabels⟩ := lowerFrom_found hs hcode
  rw [hs.pendingAt_zero] at hops
  refine ⟨ops.toArray, ?_, by simpa using hlabels⟩
  rw [lowerCode, hops]
  rfl

/-! ## Refusals -/

theorem distribute_error {args : List Value} {k : Nat} {cursors : Cursors} {regs : Registers}
    {e : VmError} (h : distribute args k cursors regs = .error e) : ∃ text, e = .malformed text := by
  induction args generalizing k cursors regs with
  | nil => cases h
  | cons v rest ih =>
    rw [distribute] at h
    split at h
    · exact ih h
    · cases h
      exact ⟨_, rfl⟩

/-- A frame for which there is no room is no defect of the script. -/
theorem FrameStack.push_ne_verify {st : FrameStack} {s : Script} {args : List Value}
    {e : VmError} (h : (st.push s args).1 = .error e) (defect : Defect) : e ≠ .verify defect := by
  rintro rfl
  rw [push] at h
  split at h
  · cases h
  · cases hfill : (Frame.blank s).fill args with
    | ok frame =>
      rw [hfill] at h
      cases h
    | error e =>
      rw [hfill] at h
      cases h
      rw [Frame.fill] at hfill
      cases hregs : distribute args 0 {} (Frame.blank s).regs with
      | ok regs =>
        rw [hregs] at hfill
        cases hfill
      | error e =>
        rw [hregs] at hfill
        cases hfill
        obtain ⟨text, htext⟩ := distribute_error hregs
        cases htext

section Refusals

variable {σ : Type}

/-- An activation gives every exception a place. -/
theorem place_of_ends {functions : Nat} {call : Invoke σ} {self : FunctionId}
    {effectAt : Activation → Option (Except Trap Effect)} {last : Activation × Ambient σ}
    {r : Result σ} {x : ScriptException} (h : Ends functions call self effectAt last r)
    (hx : r.outcome = .aborted x) : x.place ≠ none := by
  cases h with
  | falls heffect => cases hx
  | leaves heffect hperform => cases hx
  | raises heffect =>
    cases hx
    exact Option.some_ne_none _
  | propagates heffect hperform hcallee hcall haborted =>
    cases hx
    unfold ScriptException.attributeTo
    split
    · exact Option.some_ne_none _
    · rename_i hplace
      rw [hplace]
      exact Option.some_ne_none _

/-- The interpreter raises a defect in front of any activation only if verification reports it. -/
theorem verify_of_interpret {functions : Nat} {call : Invoke σ} {fuel : Nat} {self : FunctionId}
    {s : LoadedScript} {args : List Argument} {slots : ReturnSlots} {memory : Memory}
    {amb : Ambient σ} {r : Result σ} {x : ScriptException} {e : Defect}
    (h : interpret functions call fuel self s args slots memory amb = .ok r)
    (hx : r.outcome = .aborted x) (hpayload : x.payload = some (.verify e))
    (hplace : x.place = none) : s.script.verify = .error e := by
  rw [← s.verdict_eq]
  rw [interpret] at h
  cases hverdict : s.verdict with
  | error defect =>
    rw [hverdict] at h
    cases h
    cases hx
    cases hpayload
    rfl
  | ok u =>
    rw [hverdict] at h
    obtain ⟨e', hpush, rfl⟩ | ⟨frame, frames, last, r', _, _, hend, rfl⟩ := activate_ok h
    · cases hx
      cases hpayload
      exact absurd rfl (FrameStack.push_ne_verify hpush e)
    · unfold leaveFrame at hx
      split at hx
      · exact absurd hplace (place_of_ends hend hx)
      · rename_i e' hpop
        split at hx
        · exact absurd hplace (place_of_ends hend hx)
        · cases hx
          cases hpayload
          -- A stack without a frame to pop is reported as such.
          unfold FrameStack.pop at hpop
          split at hpop
          · cases hpop
          · cases hpop

/-- Under a policy no activation of a script with a defect is set up. -/
theorem not_starts_of_defect {p : Program} {d : Dispatcher σ} {I : σ → Prop} (hd : d.Policy p I)
    {v : Invocation σ} (hI : I v.ambient.tier) {s s' : LoadedScript}
    (hscript : p.functions[v.id]? = some (.script s)) {e : Defect}
    (hverify : s.script.verify = .error e)
    {effectAt : Activation → Option (Except Trap Effect)} {first : Activation × Ambient σ} :
    ¬ Starts p d v s' effectAt first := by
  intro h
  have hok := (h.mode hd hI).1
  have hs := h.script
  rw [hscript] at hs
  cases hs
  rw [hverify] at hok
  cases hok

end Refusals

/-- A script with a defect is refused by both ways, each with that defect and in front of any
activation: the interpreter raises it and leaves all state as it was, no policy sets up an
activation, and compilation reports it.  A script without a defect is compiled: each instruction
is lowered, with labels that lie in the code or just behind it. -/
theorem refused_alike {σ : Type} (s : LoadedScript) :
    (∀ (functions : Nat) (call : Invoke σ) (fuel : Nat) (self : FunctionId)
        (args : List Argument) (slots : ReturnSlots) (memory : Memory) (amb : Ambient σ)
        (e : Defect),
      (s.script.verify = .error e ↔
        ∃ r x, interpret functions call fuel self s args slots memory amb = .ok r ∧
          r.outcome = .aborted x ∧ x.payload = some (.verify e) ∧ x.place = none) ∧
      (s.script.verify = .error e →
        interpret functions call fuel self s args slots memory amb =
          .ok (refusal (.verify e) slots memory amb))) ∧
    (∀ {p : Program} {d : Dispatcher σ} {I : σ → Prop}, d.Policy p I → ∀ {v : Invocation σ},
      I v.ambient.tier → p.functions[v.id]? = some (.script s) →
      ∀ {e : Defect}, s.script.verify = .error e →
        Refuses p d v s (.verify e) ∧
          ¬ ∃ s' effectAt first, Starts p d v s' effectAt first) ∧
    (∀ (id : FunctionId) (capture : Bool) (e : Defect), s.script.verify = .error e →
      compile id s.script capture = .error (match e with
        | .unknownOpcode pc op => .unknownOpcode pc op
        | e => .verify e)) ∧
    (s.script.verify = .ok () → ∀ (id : FunctionId) (capture : Bool),
      ∃ code, compile id s.script capture = .ok code ∧
        code.ops.size = s.script.code.size ∧
        ∀ pc i, s.script.code[pc]? = some i → ∃ op o, i.opcode? = some op ∧
          code.ops[pc]? = some o ∧
          lowerOp s.script pc (s.script.pendingAt pc) op i = .ok o ∧
          ∀ l ∈ o.labels, l ≤ s.script.code.size) := by
  refine ⟨?_, ?_, ?_, ?_⟩
  · intro functions call fuel self args slots memory amb e
    have hrefusal : s.script.verify = .error e →
        interpret functions call fuel self s args slots memory amb =
          .ok (refusal (.verify e) slots memory amb) := by
      intro hverify
      rw [interpret, s.verdict_eq, hverify]
      rfl
    refine ⟨⟨?_, ?_⟩, hrefusal⟩
    · intro hverify
      exact ⟨_, _, hrefusal hverify, rfl, rfl, rfl⟩
    · rintro ⟨r, x, hrun, hx, hpayload, hplace⟩
      exact verify_of_interpret hrun hx hpayload hplace
  · intro p d I hd v hI hscript e hverify
    refine ⟨.unverified hscript ?_ (by rw [s.verdict_eq, hverify]), ?_⟩
    · cases hchoice : (d.dispatch v.id s.script v.ambient).1 with
      | none => rfl
      | some code =>
        have hok := (hd.lowered hI hscript hchoice).1
        rw [hverify] at hok
        cases hok
    · rintro ⟨s', effectAt, first, hstart⟩
      exact not_starts_of_defect hd hI hscript hverify hstart
  · intro id capture e hverify
    rw [compile, hverify]
    cases e <;> rfl
  · intro hverify id capture
    obtain ⟨ops, hlower, hlabels⟩ := lowerCode_found hverify
    obtain ⟨hsize, hat⟩ := lowerCode_at hverify hlower
    refine ⟨_, by rw [compile, hverify, hlower], hsize, ?_⟩
    intro pc i hi
    obtain ⟨op, hop, _⟩ := (Script.accepted_of_verify hverify).instr hi
    obtain ⟨o, ho, hlowered⟩ := hat pc i op hi hop
    exact ⟨op, o, hop, ho, hlowered, hlabels o (Array.mem_of_getElem? ho)⟩

/-- A script that returns a register, but has none. -/
def noRegister : LoadedScript := Script.load
  { name := "none"
    code := #[.make .nop 0 0 0, .make .ret 128 0 0] }

/-- The same script with a register. -/
def oneRegister : LoadedScript := Script.load
  { name := "one"
    code := #[.make .nop 0 0 0, .make .ret 128 0 0]
    regs := { int := 1 } }

/-- Without the register both ways report the same operand of the return, also under the policy
that compiles whatever it can; with it the script is compiled. -/
theorem refused_alike_register :
    interpret 1 (fun _ _ _ _ _ => .error .badAccess) 0 0 noRegister [] (.fresh []) {}
        ({ tier := () } : Ambient Unit) =
      .ok (refusal (.verify (.registerOutOfRange 1 .int 0)) (.fresh []) {} { tier := () }) ∧
    compile 0 noRegister.script false = .error (.verify (.registerOutOfRange 1 .int 0)) ∧
    Refuses ⟨#[.script noRegister]⟩ .compiling ⟨2, 0, [], .fresh [], {}, { tier := () }⟩ noRegister
      (.verify (.registerOutOfRange 1 .int 0)) ∧
    ∃ code, compile 0 oneRegister.script false = .ok code := by
  have hdefect : noRegister.script.verify = .error (.registerOutOfRange 1 .int 0) := by
    decide +kernel
  have hok : oneRegister.script.verify = .ok () := by decide +kernel
  obtain ⟨hinterpret, hpolicy, hcompile, _⟩ := refused_alike (σ := Unit) noRegister
  obtain ⟨code, hcode, _⟩ := (refused_alike (σ := Unit) oneRegister).2.2.2 hok 0 false
  exact ⟨(hinterpret _ _ _ _ _ _ _ _ _).2 hdefect, hcompile 0 false _ hdefect,
    (hpolicy (Dispatcher.compiling_policy _) trivial rfl hdefect).1, code, hcode⟩

end TierVm
