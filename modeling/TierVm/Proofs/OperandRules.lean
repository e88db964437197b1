import Mathlib.Data.List.Basic
import TierVm.Proofs.Accepted

/-!
# The rules for operands

`needs` lists what verification checks of an instruction.  This module says what an instruction
has to be, as rules: `Script.OperandsValid` has one for each operation, about the registers and
constants that its operands name, the bytes that have a meaning, the target of a jump and the
results of a call.

* The rules, with `Script.TaggedOperand`, `Script.BinaryInputs`, `Script.OffsetOperand`,
  `Script.ComparedString` and `Script.CallResults` for the operands that several operations share.
* Bytes.  What the checks of flags and opcode bytes let through is decided over all 256 bytes.
* `needs_met_iff`: the requirements that are checked are the rules.
-/

namespace TierVm

namespace Script

/-! ## Rules for operands -/

/-- The script has a register. -/
def HasReg (s : Script) (cls : RegClass) (k : Nat) : Prop := k < s.regs.of cls

/-- The script has a constant. -/
def HasKonst (s : Script) (cls : RegClass) (k : Nat) : Prop := k < s.konst.sizeOf cls

/-- A tagged operand: absent, a register of the class that the tag names, or a constant of that
class if the constant bit is set.  No other tag has a meaning. -/
inductive TaggedOperand (s : Script) : UInt8 → Nat → Prop where
  | nil (k : Nat) : TaggedOperand s nilTag k
  | reg {cls : RegClass} {k : Nat} (h : s.HasReg cls k) : TaggedOperand s cls.tag k
  | konst {cls : RegClass} {k : Nat} (h : s.HasKonst cls k) :
      TaggedOperand s (cls.tag ||| konstBit) k

/-- The two inputs of a binary operation on a class. -/
inductive BinaryInputs (s : Script) (cls : RegClass) (i : Instr) : Form → Prop where
  | rr (hb : s.HasReg cls i.b.toNat) (hc : s.HasReg cls i.c.toNat) : BinaryInputs s cls i .rr
  | rk (hb : s.HasReg cls i.b.toNat) (hc : s.HasKonst cls i.c.toNat) : BinaryInputs s cls i .rk
  | kr (hb : s.HasKonst cls i.b.toNat) (hc : s.HasReg cls i.c.toNat) : BinaryInputs s cls i .kr
  | ri (hb : s.HasReg cls i.b.toNat) : BinaryInputs s cls i .ri

/-- The byte offset of a memory access. -/
inductive OffsetOperand (s : Script) (i : Instr) : Offset → Prop where
  | konst (hc : s.HasKonst .int i.c.toNat) : OffsetOperand s i .konst
  | register (hc : s.HasReg .int i.c.toNat) : OffsetOperand s i .register

/-- A string that is compared: a constant if its bit among the flags is set, else a register. -/
inductive ComparedString (s : Script) (flags bit k : UInt8) : Prop where
  | konst (hset : flags &&& bit ≠ 0) (h : s.HasKonst .string k.toNat)
  | reg (hclear : flags &&& bit = 0) (h : s.HasReg .string k.toNat)

/-- The results of a call: not too many, and as many result instructions follow. -/
structure CallResults (s : Script) (pc : Nat) (i : Instr) : Prop where
  count_le : i.c.toNat ≤ maxReturns
  follow : ∀ k < i.c.toNat, ∃ r, s.code[pc + 1 + k]? = some r ∧ r.opcode? = some .result

/-- The operands of the instruction at `pc` are those of its operation: registers and constants
that exist, of the classes that the operation uses, and bytes that have a meaning.  The register
that receives a result is tagged neither as a constant nor as absent. -/
inductive OperandsValid (s : Script) (pc : Nat) (i : Instr) : Opcode → Prop where
  | nop : OperandsValid s pc i .nop
  | jmp (h : 0 ≤ (pc : Int) + 1 + i.abc.toInt)
      (h' : (pc : Int) + 1 + i.abc.toInt ≤ (s.code.size : Int)) : OperandsValid s pc i .jmp
  | test (ha : s.HasReg .int i.a.toNat) : OperandsValid s pc i .test
  | testn (ha : s.HasReg .int i.a.toNat) : OperandsValid s pc i .testn
  | ret (h : s.TaggedOperand i.b i.c.toNat) : OperandsValid s pc i .ret
  | reti : OperandsValid s pc i .reti
  | throwReg (hmode : i.a = 0) (h : s.HasReg .pointer i.bc.toNat) : OperandsValid s pc i .throw
  | throwKonst (hmode : i.a = 1) (h : s.HasKonst .pointer i.bc.toNat) :
      OperandsValid s pc i .throw
  | bound (ha : s.HasReg .int i.a.toNat) : OperandsValid s pc i .bound
  | boundK (ha : s.HasReg .int i.a.toNat) (h : s.HasKonst .int i.bc.toNat) :
      OperandsValid s pc i .boundK
  | boundR (ha : s.HasReg .int i.a.toNat) (hb : s.HasReg .int i.b.toNat) :
      OperandsValid s pc i .boundR
  | li (ha : s.HasReg .int i.a.toNat) : OperandsValid s pc i .li
  | lk (ha : s.HasReg .int i.a.toNat) (h : s.HasKonst .int i.bc.toNat) : OperandsValid s pc i .lk
  | lkf (ha : s.HasReg .float i.a.toNat) (h : s.HasKonst .float i.bc.toNat) :
      OperandsValid s pc i .lkf
  | lks (ha : s.HasReg .string i.a.toNat) (h : s.HasKonst .string i.bc.toNat) :
      OperandsValid s pc i .lks
  | lkp (ha : s.HasReg .pointer i.a.toNat) (h : s.HasKonst .pointer i.bc.toNat) :
      OperandsValid s pc i .lkp
  | load {w : Width} {o : Offset} (ha : s.HasReg w.regClass i.a.toNat)
      (hb : s.HasReg .pointer i.b.toNat) (hc : s.OffsetOperand i o) :
      OperandsValid s pc i (.load w o)
  | store {w : Width} {o : Offset} (ha : s.HasReg .pointer i.a.toNat)
      (hb : s.HasReg w.regClass i.b.toNat) (hc : s.OffsetOperand i o) :
      OperandsValid s pc i (.store w o)
  | mov (ha : s.HasReg .int i.a.toNat) (hb : s.HasReg .int i.b.toNat) : OperandsValid s pc i .mov
  | movf (ha : s.HasReg .float i.a.toNat) (hb : s.HasReg .float i.b.toNat) :
      OperandsValid s pc i .movf
  | movs (ha : s.HasReg .string i.a.toNat) (hb : s.HasReg .string i.b.toNat) :
      OperandsValid s pc i .movs
  | mova (ha : s.HasReg .pointer i.a.toNat) (hb : s.HasReg .pointer i.b.toNat) :
      OperandsValid s pc i .mova
  | cast {kind : Cast} (hkind : Cast.ofByte? i.c = some kind)
      (ha : s.HasReg kind.target i.a.toNat) (hb : s.HasReg kind.source i.b.toNat) :
      OperandsValid s pc i .cast
  | param (h : s.TaggedOperand i.a i.bc.toNat) : OperandsValid s pc i .param
  | parami : OperandsValid s pc i .parami
  | call (ha : s.HasReg .pointer i.a.toNat) (hresults : s.CallResults pc i) :
      OperandsValid s pc i .call
  | callK (ha : s.HasKonst .pointer i.a.toNat) (hresults : s.CallResults pc i) :
      OperandsValid s pc i .callK
  | result (hkonst : i.b &&& konstBit = 0) (hnil : i.b &&& nilTag = 0)
      (hc : s.HasReg (.ofTag i.b) i.c.toNat) : OperandsValid s pc i .result
  | new (ha : s.HasReg .pointer i.a.toNat) (hb : s.HasReg .int i.b.toNat) :
      OperandsValid s pc i .new
  | newK (ha : s.HasReg .pointer i.a.toNat) (h : s.HasKonst .int i.bc.toNat) :
      OperandsValid s pc i .newK
  | concat (ha : s.HasReg .string i.a.toNat) (hb : s.HasReg .string i.b.toNat)
      (hc : s.HasReg .string i.c.toNat) : OperandsValid s pc i .concat
  | lens (ha : s.HasReg .int i.a.toNat) (hb : s.HasReg .string i.b.toNat) :
      OperandsValid s pc i .lens
  | cmps (hmethod : i.a &&& methodMask ≠ methodMask)
      (hb : s.ComparedString i.a leftKonstBit i.b) (hc : s.ComparedString i.a rightKonstBit i.c) :
      OperandsValid s pc i .cmps
  | intOp {o : IntOp} {form : Form} (ha : s.HasReg .int i.a.toNat)
      (hbc : s.BinaryInputs .int i form) : OperandsValid s pc i (.intOp o form)
  | abs (ha : s.HasReg .int i.a.toNat) (hb : s.HasReg .int i.b.toNat) : OperandsValid s pc i .abs
  | neg (ha : s.HasReg .int i.a.toNat) (hb : s.HasReg .int i.b.toNat) : OperandsValid s pc i .neg
  | not (ha : s.HasReg .int i.a.toNat) (hb : s.HasReg .int i.b.toNat) : OperandsValid s pc i .not
  | sext (ha : s.HasReg .int i.a.toNat) (hb : s.HasReg .int i.b.toNat) (h : 1 ≤ i.c.toNat)
      (h' : i.c.toNat ≤ 32) : OperandsValid s pc i .sext
  | intCmp {cmp : IntCmp} {form : Form} (hbc : s.BinaryInputs .int i form) :
      OperandsValid s pc i (.intCmp cmp form)
  | floatOp {o : FloatOp} {form : Form} (ha : s.HasReg .float i.a.toNat)
      (hbc : s.BinaryInputs .float i form) : OperandsValid s pc i (.floatOp o form)
  | flop (ha : s.HasReg .float i.a.toNat) (hb : s.HasReg .float i.b.toNat)
      (hc : i.c.toNat < flopCount) : OperandsValid s pc i .flop
  | floatCmp {cmp : FloatCmp} {form : Form} (hbc : s.BinaryInputs .float i form) :
      OperandsValid s pc i (.floatCmp cmp form)
  | addaRR (ha : s.HasReg .pointer i.a.toNat) (hb : s.HasReg .pointer i.b.toNat)
      (hc : s.HasReg .int i.c.toNat) : OperandsValid s pc i .addaRR
  | addaRK (ha : s.HasReg .pointer i.a.toNat) (hb : s.HasReg .pointer i.b.toNat)
      (hc : s.HasKonst .int i.c.toNat) : OperandsValid s pc i .addaRK
  | suba (ha : s.HasReg .int i.a.toNat) (hb : s.HasReg .pointer i.b.toNat)
      (hc : s.HasReg .pointer i.c.toNat) : OperandsValid s pc i .suba
  | eqaR (hb : s.HasReg .pointer i.b.toNat) (hc : s.HasReg .pointer i.c.toNat) :
      OperandsValid s pc i .eqaR
  | eqaK (hb : s.HasReg .pointer i.b.toNat) (hc : s.HasKonst .pointer i.c.toNat) :
      OperandsValid s pc i .eqaK

variable {s : Script} {pc : Nat} {i : Instr} {op : Opcode}

/-! ## What is checked of operands -/

/-- A byte is one of 256, so what is said of all bytes can be decided. -/
theorem exists_fin_byte (b : UInt8) : ∃ n : Fin 256, UInt8.ofNat n = b :=
  ⟨⟨b.toNat, b.toNat_lt⟩, UInt8.ofNat_toNat⟩

/-- A tag without stray bits is that of a class, with or without the constant bit. -/
theorem exists_class_of_clearIn {flags : UInt8} (h : clearIn 248 flags = true) :
    ∃ cls ∈ RegClass.all, flags = cls.tag ∨ flags = cls.tag ||| konstBit := by
  have htable : ∀ n : Fin 256, clearIn 248 (UInt8.ofNat n) = true →
      ∃ cls ∈ RegClass.all, UInt8.ofNat n = cls.tag ∨ UInt8.ofNat n = cls.tag ||| konstBit := by
    decide +kernel
  obtain ⟨n, rfl⟩ := exists_fin_byte flags
  exact htable n h

theorem tagged_met_iff {flags : UInt8} {k : Nat} :
    (∀ n ∈ Need.tagged flags k, n.Met s) ↔ s.TaggedOperand flags k := by
  constructor
  · intro h
    have hvalid : Source.validTag flags = true := h _ (List.mem_cons_self ..)
    have hsource : ∀ n ∈ Need.ofSource (.decode flags k), n.Met s :=
      fun n hn => h n (List.mem_cons_of_mem _ hn)
    rw [Source.validTag, Bool.or_eq_true, beq_iff_eq] at hvalid
    rcases hvalid with rfl | hclear
    · exact .nil k
    · obtain ⟨cls, _, rfl | rfl⟩ := exists_class_of_clearIn hclear
      · have hdecode : Source.decode cls.tag k = .reg cls k := by cases cls <;> rfl
        rw [hdecode] at hsource
        exact .reg (hsource _ (List.mem_singleton.2 rfl))
      · have hdecode : Source.decode (cls.tag ||| konstBit) k = .konst cls k := by
          cases cls <;> rfl
        rw [hdecode] at hsource
        exact .konst (hsource _ (List.mem_singleton.2 rfl))
  · intro h
    cases h with
    | nil => simp [Need.tagged, Source.decode, Need.ofSource, Need.Met, Source.validTag]
    | @reg cls _ h =>
      have hvalid : Source.validTag cls.tag = true := by cases cls <;> rfl
      have hdecode : Source.decode cls.tag k = .reg cls k := by cases cls <;> rfl
      simpa [Need.tagged, hdecode, hvalid, Need.ofSource, Need.Met, HasReg] using h
    | @konst cls _ h =>
      have hvalid : Source.validTag (cls.tag ||| konstBit) = true := by cases cls <;> rfl
      have hdecode : Source.decode (cls.tag ||| konstBit) k = .konst cls k := by
        cases cls <;> rfl
      simpa [Need.tagged, hdecode, hvalid, Need.ofSource, Need.Met, HasKonst] using h

theorem sources_met_iff {cls : RegClass} {form : Form} :
    (∀ n ∈ Need.sources cls i form, n.Met s) ↔ s.BinaryInputs cls i form := by
  rw [← List.forall_iff_forall_mem]
  constructor
  · intro h
    cases form with
    | rr => exact .rr h.1 h.2
    | rk => exact .rk h.1 h.2
    | kr => exact .kr h.1 h.2
    | ri => exact .ri h
  · intro h
    cases h with
    | rr hb hc => exact ⟨hb, hc⟩
    | rk hb hc => exact ⟨hb, hc⟩
    | kr hb hc => exact ⟨hb, hc⟩
    | ri hb => exact hb

theorem offset_met_iff {o : Offset} : (Need.offset i o).Met s ↔ s.OffsetOperand i o := by
  constructor
  · intro h
    cases o with
    | konst => exact .konst h
    | register => exact .register h
  · intro h
    cases h with
    | konst hc => exact hc
    | register hc => exact hc

theorem compared_met_iff {flags bit k : UInt8} :
    (∀ n ∈ Need.ofSource (.ofCompare (!clearIn bit flags) k), n.Met s) ↔
      s.ComparedString flags bit k := by
  rw [← List.forall_iff_forall_mem]
  by_cases hbit : flags &&& bit = 0
  · have hclear : clearIn bit flags = true := by simp [clearIn, hbit]
    rw [hclear]
    constructor
    · intro h
      exact .reg hbit h
    · intro h
      cases h with
      | konst hset _ => exact absurd hbit hset
      | reg _ h => exact h
  · have hset : clearIn bit flags = false := by simp [clearIn, hbit]
    rw [hset]
    constructor
    · intro h
      exact .konst hbit h
    · intro h
      cases h with
      | konst _ h => exact h
      | reg hclear _ => exact absurd hclear hbit

/-- The tag of a result is neither that of a constant nor that of an absent value. -/
theorem clearIn_result_iff {flags : UInt8} :
    clearIn (konstBit ||| nilTag) flags = true ↔
      flags &&& konstBit = 0 ∧ flags &&& nilTag = 0 := by
  have htable : ∀ n : Fin 256, clearIn (konstBit ||| nilTag) (UInt8.ofNat n) = true ↔
      UInt8.ofNat n &&& konstBit = 0 ∧ UInt8.ofNat n &&& nilTag = 0 := by
    decide +kernel
  obtain ⟨n, rfl⟩ := exists_fin_byte flags
  exact htable n

/-- One byte only stands for a result instruction. -/
theorem op_eq_result_iff {r : Instr} :
    r.op = Opcode.result.byte ↔ r.opcode? = some .result := by
  have htable : ∀ n : Fin 256, UInt8.ofNat n = Opcode.result.byte ↔
      Opcode.ofByte? (UInt8.ofNat n) = some .result := by
    decide +kernel
  obtain ⟨n, hn⟩ := exists_fin_byte r.op
  rw [Instr.opcode?, ← hn]
  exact htable n

theorem resultsFollow_iff {count : Nat} :
    s.resultsFollow pc count = true ↔
      ∀ k < count, ∃ r, s.code[pc + 1 + k]? = some r ∧ r.opcode? = some .result := by
  simp only [resultsFollow, List.all_eq_true, List.mem_range, beq_iff_eq, Option.map_eq_some_iff,
    op_eq_result_iff]

/-- The requirements that are checked, with the results of a call, are the rules. -/
theorem needs_met_iff :
    ((∀ n ∈ needs op pc i, n.Met s) ∧ (op = .call ∨ op = .callK → s.CallResults pc i)) ↔
      s.OperandsValid pc i op := by
  rw [← List.forall_iff_forall_mem]
  constructor
  · rintro ⟨h, hresults⟩
    cases op with
    | nop => exact .nop
    | jmp => exact .jmp h.1 h.2
    | test => exact .test h
    | testn => exact .testn h
    | ret => exact .ret (tagged_met_iff.1 (List.forall_iff_forall_mem.1 h))
    | reti => exact .reti
    | throw =>
      simp only [needs] at h
      split at h
      · next ha => exact .throwReg (UInt8.toNat_inj.1 ha) h
      · split at h
        · next ha => exact .throwKonst (UInt8.toNat_inj.1 ha) h
        · cases h
    | bound => exact .bound h
    | boundK => exact .boundK h.1 h.2
    | boundR => exact .boundR h.1 h.2
    | li => exact .li h
    | lk => exact .lk h.1 h.2
    | lkf => exact .lkf h.1 h.2
    | lks => exact .lks h.1 h.2
    | lkp => exact .lkp h.1 h.2
    | load w o => exact .load h.1 h.2.1 (offset_met_iff.1 h.2.2)
    | store w o => exact .store h.1 h.2.1 (offset_met_iff.1 h.2.2)
    | mov => exact .mov h.1 h.2
    | movf => exact .movf h.1 h.2
    | movs => exact .movs h.1 h.2
    | mova => exact .mova h.1 h.2
    | cast =>
      cases hkind : Cast.ofByte? i.c with
      | some kind =>
        simp only [needs, hkind] at h
        exact .cast hkind h.1 h.2
      | none =>
        simp only [needs, hkind] at h
        cases h
    | param => exact .param (tagged_met_iff.1 (List.forall_iff_forall_mem.1 h))
    | parami => exact .parami
    | call => exact .call h (hresults (.inl rfl))
    | callK => exact .callK h (hresults (.inr rfl))
    | result =>
      obtain ⟨hkonst, hnil⟩ := clearIn_result_iff.1 h.1
      exact .result hkonst hnil h.2
    | new => exact .new h.1 h.2
    | newK => exact .newK h.1 h.2
    | concat => exact .concat h.1 h.2.1 h.2.2
    | lens => exact .lens h.1 h.2
    | cmps =>
      rw [List.forall_iff_forall_mem] at h
      simp only [needs, List.forall_mem_cons, List.forall_mem_append] at h
      obtain ⟨hmethod, hb, hc⟩ := h
      exact .cmps (by simpa [Need.Met] using hmethod) (compared_met_iff.1 hb)
        (compared_met_iff.1 hc)
    | intOp o form =>
      rw [List.forall_iff_forall_mem] at h
      simp only [needs, List.forall_mem_cons] at h
      exact .intOp h.1 (sources_met_iff.1 h.2)
    | abs => exact .abs h.1 h.2
    | neg => exact .neg h.1 h.2
    | not => exact .not h.1 h.2
    | sext =>
      have hwidth := of_decide_eq_true h.2.2
      exact .sext h.1 h.2.1 hwidth.1 hwidth.2
    | intCmp cmp form => exact .intCmp (sources_met_iff.1 (List.forall_iff_forall_mem.1 h))
    | floatOp o form =>
      rw [List.forall_iff_forall_mem] at h
      simp only [needs, List.forall_mem_cons] at h
      exact .floatOp h.1 (sources_met_iff.1 h.2)
    | flop => exact .flop h.1 h.2.1 (of_decide_eq_true h.2.2)
    | floatCmp cmp form => exact .floatCmp (sources_met_iff.1 (List.forall_iff_forall_mem.1 h))
    | addaRR => exact .addaRR h.1 h.2.1 h.2.2
    | addaRK => exact .addaRK h.1 h.2.1 h.2.2
    | suba => exact .suba h.1 h.2.1 h.2.2
    | eqaR => exact .eqaR h.1 h.2
    | eqaK => exact .eqaK h.1 h.2
  · intro h
    refine ⟨?_, ?_⟩
    · cases h with
      | nop | reti | parami => trivial
      | jmp h h' => exact ⟨h, h'⟩
      | test ha | testn ha | bound ha | li ha | call ha _ | callK ha _ => exact ha
      | ret h | param h => exact List.forall_iff_forall_mem.2 (tagged_met_iff.2 h)
      | throwReg hmode h =>
        simp only [needs, hmode]
        exact h
      | throwKonst hmode h =>
        simp only [needs, hmode]
        exact h
      | boundK ha hb | boundR ha hb | lk ha hb | lkf ha hb | lks ha hb | lkp ha hb | mov ha hb
      | movf ha hb | movs ha hb | mova ha hb | new ha hb | newK ha hb | lens ha hb | abs ha hb
      | neg ha hb | not ha hb | eqaR ha hb | eqaK ha hb => exact ⟨ha, hb⟩
      | load ha hb hc | store ha hb hc => exact ⟨ha, hb, offset_met_iff.2 hc⟩
      | cast hkind ha hb =>
        simp only [needs, hkind]
        exact ⟨ha, hb⟩
      | result hkonst hnil hc => exact ⟨clearIn_result_iff.2 ⟨hkonst, hnil⟩, hc⟩
      | concat ha hb hc | addaRR ha hb hc | addaRK ha hb hc | suba ha hb hc =>
        exact ⟨ha, hb, hc⟩
      | cmps hmethod hb hc =>
        rw [List.forall_iff_forall_mem]
        simp only [needs, List.forall_mem_cons, List.forall_mem_append]
        exact ⟨by simpa [Need.Met] using hmethod, compared_met_iff.2 hb, compared_met_iff.2 hc⟩
      | intOp ha hbc | floatOp ha hbc =>
        rw [List.forall_iff_forall_mem]
        simp only [needs, List.forall_mem_cons]
        exact ⟨ha, sources_met_iff.2 hbc⟩
      | sext ha hb hc hc' => exact ⟨ha, hb, decide_eq_true ⟨hc, hc'⟩⟩
      | intCmp hbc | floatCmp hbc => exact List.forall_iff_forall_mem.2 (sources_met_iff.2 hbc)
      | flop ha hb hc => exact ⟨ha, hb, decide_eq_true hc⟩
    · rintro (rfl | rfl)
      · cases h with
        | call _ hresults => exact hresults
      · cases h with
        | callK _ hresults => exact hresults

end Script

end TierVm
