import Mathlib.Tactic.ByContra
import TierVm.Code.Verify

/-!
# What acceptance means

`Script.verify` runs over the code once, threads the count of pending parameters through it and
looks at the branches afterwards.  A proof about execution wants the facts one instruction at a
time, at whatever index execution has reached.  This module turns the one into the other.

There are four groups.

* Computations that may fail.  `bind_eq_ok_iff` takes a computation apart that came to a result.
* One instruction.  `Need.Met` says what a requirement asks of a script, and
  `checkInstr_eq_ok_iff` reads a passed check as: the operation is known, its requirements are
  met, and the count behind it is `pendingAfter`.
* The pass.  `checkFrom_eq_ok` is the induction over the code.
* The whole script.  `Script.pendingAt` is the count in front of an instruction, and
  `Script.Accepted` collects what holds of a script that passes: `accepted_of_verify`.

The lemmas after that follow the counts along the ways execution can take: over the results of a
call (`Accepted.pendingAt_results`), and within the parameter area
(`Accepted.pendingAt_le`).
-/

namespace TierVm

/-! ## Computations that may fail -/

/-- A sequence of two computations comes to a result when both do. -/
theorem bind_eq_ok_iff {ε α β : Type} {m : Except ε α} {f : α → Except ε β} {r : β} :
    m >>= f = .ok r ↔ ∃ x, m = .ok x ∧ f x = .ok r := by
  cases m with
  | error e =>
    constructor
    · intro h
      cases h
    · rintro ⟨x, hx, _⟩
      cases hx
  | ok x =>
    constructor
    · intro h
      exact ⟨x, rfl, h⟩
    · rintro ⟨y, hy, h⟩
      cases hy
      exact h

/-- The image of a computation comes to a result when the computation does. -/
theorem map_eq_ok_iff {ε α β : Type} {m : Except ε α} {f : α → β} {r : β} :
    m.map f = .ok r ↔ ∃ x, m = .ok x ∧ f x = r := by
  cases m with
  | error e =>
    constructor
    · intro h
      cases h
    · rintro ⟨x, hx, _⟩
      cases hx
  | ok x =>
    constructor
    · intro h
      cases h
      exact ⟨x, rfl, rfl⟩
    · rintro ⟨y, hy, h⟩
      cases hy
      rw [← h]
      rfl

/-! ## One instruction -/

/-- What a requirement asks of a script. -/
def Need.Met (s : Script) : Need → Prop
  | .reg cls i => i < s.regs.of cls
  | .konst cls i => i < s.konst.sizeOf cls
  | .target t => 0 ≤ t ∧ t ≤ (s.code.size : Int)
  | .valid ok _ => ok = true

/-- Whether an operation changes the count of pending parameters. -/
def Opcode.countsParams : Opcode → Bool
  | .param | .parami | .call | .callK => true
  | _ => false

namespace Script

variable {s : Script} {pending after : Nat} {i : Instr}

theorem require_eq_ok_iff (pc : Nat) {n : Need} : s.require pc n = .ok () ↔ n.Met s := by
  cases n with
  | reg cls i =>
    simp only [require, Need.Met]
    split <;> simp_all
  | konst cls i =>
    simp only [require, Need.Met]
    split <;> simp_all
  | target t =>
    simp only [require, Need.Met]
    split <;> simp_all
  | valid ok what =>
    simp only [require, Need.Met]
    split <;> simp_all

theorem requireAll_eq_ok_iff (pc : Nat) {ns : List Need} :
    s.requireAll pc ns = .ok () ↔ ∀ n ∈ ns, n.Met s := by
  induction ns with
  | nil => simp [requireAll]
  | cons n rest ih =>
    simp only [List.forall_mem_cons]
    rw [← require_eq_ok_iff pc, ← ih, requireAll]
    cases hn : s.require pc n with
    | ok u => simp
    | error d => simp

/-- A passed check: the operation is known, its requirements are met, and the count behind it is
the one that the operation leaves. -/
theorem checkInstr_eq_ok_iff {pc : Nat} :
    s.checkInstr pc pending i = .ok after ↔
      ∃ op, i.opcode? = some op ∧ (∀ n ∈ needs op pc i, n.Met s) ∧
        s.pendingAfter pc pending op i = .ok after := by
  rw [checkInstr]
  cases hop : i.opcode? with
  | none => simp
  | some op =>
    simp only [Option.some.injEq]
    rw [exists_eq_left', ← requireAll_eq_ok_iff pc]
    cases hreq : s.requireAll pc (needs op pc i) with
    | ok u => simp
    | error d => simp

/-! ## The pass over the code -/

/-- The pass yields one count more than there are instructions, the first is the one it starts
with, and each instruction passes its check between its two counts. -/
theorem checkFrom_eq_ok {pc : Nat} {is : List Instr} {counts : List Nat}
    (h : s.checkFrom is pc pending = .ok counts) :
    counts.length = is.length + 1 ∧ counts.getD 0 0 = pending ∧
      ∀ k i, is[k]? = some i →
        s.checkInstr (pc + k) (counts.getD k 0) i = .ok (counts.getD (k + 1) 0) := by
  induction is generalizing pc pending counts with
  | nil =>
    rw [checkFrom] at h
    cases h
    simp
  | cons j rest ih =>
    rw [checkFrom] at h
    cases hj : s.checkInstr pc pending j with
    | error d => simp [hj] at h
    | ok next =>
      rw [hj] at h
      cases hrest : s.checkFrom rest (pc + 1) next with
      | error d => simp [hrest] at h
      | ok tail =>
        simp only [hrest, Except.ok.injEq] at h
        obtain ⟨hlen, hhead, hinstr⟩ := ih hrest
        subst h
        refine ⟨by simp [hlen], rfl, ?_⟩
        intro k i hk
        cases k with
        | zero =>
          simp only [List.getElem?_cons_zero, Option.some.injEq] at hk
          subst hk
          simp only [List.getD_cons_zero, List.getD_cons_succ, hhead]
          exact hj
        | succ k =>
          have hk' := hinstr k i (by simpa using hk)
          simp only [List.getD_cons_succ]
          rwa [Nat.add_right_comm, Nat.add_assoc] at hk'

/-! ## The whole script -/

/-- Pending parameters in front of an instruction, as verification counts them. -/
def pendingAt (s : Script) (pc : Nat) : Nat :=
  match s.pendingCounts with
  | .ok counts => counts.getD pc 0
  | .error _ => 0

/-- What holds of a script that passes verification. -/
structure Accepted (s : Script) : Prop where
  pendingAt_zero : s.pendingAt 0 = 0
  /-- Every instruction passes its check between the counts in front of it and behind it. -/
  checked : ∀ {pc : Nat} {i : Instr}, s.code[pc]? = some i →
    s.checkInstr pc (s.pendingAt pc) i = .ok (s.pendingAt (pc + 1))
  /-- A branch leads to where the count is the one behind the branch. -/
  branch : ∀ {pc : Nat} {i : Instr} {target : Nat}, s.code[pc]? = some i →
    branchTarget? pc i = some target → target < s.code.size →
    s.pendingAt target = s.pendingAt (pc + 1)

/-- The counts that verification collects are those of `pendingAt`. -/
theorem pendingCounts_of_verify (h : s.verify = .ok ()) :
    ∃ counts, s.pendingCounts = .ok counts ∧ counts.length = s.code.size + 1 ∧
      ∀ pc ≤ s.code.size, counts[pc]? = some (s.pendingAt pc) := by
  rw [verify] at h
  cases hcounts : s.pendingCounts with
  | error d => simp [hcounts] at h
  | ok counts =>
    have hlen : counts.length = s.code.size + 1 := by
      have := (checkFrom_eq_ok hcounts).1
      simpa using this
    refine ⟨counts, rfl, hlen, ?_⟩
    intro pc hpc
    have hlt : pc < counts.length := by omega
    simp only [pendingAt, hcounts]
    rw [List.getElem?_eq_getElem hlt, List.getD_eq_getElem?_getD, List.getElem?_eq_getElem hlt,
      Option.getD_some]

theorem accepted_of_verify (h : s.verify = .ok ()) : s.Accepted := by
  rw [verify] at h
  cases hcounts : s.pendingCounts with
  | error d => simp [hcounts] at h
  | ok counts =>
    have hat : ∀ pc, s.pendingAt pc = counts.getD pc 0 := by
      intro pc
      simp only [pendingAt, hcounts]
    obtain ⟨_, hzero, hinstr⟩ := checkFrom_eq_ok hcounts
    refine ⟨?_, ?_, ?_⟩
    · rw [hat, hzero]
    · intro pc i hi
      have := hinstr pc i (by simpa using hi)
      rwa [Nat.zero_add, ← hat, ← hat] at this
    · intro pc i target hi ht hlt
      -- The second pass of verification saw no defect at `pc`.
      have hpc : pc < s.code.size := by
        rw [Array.getElem?_eq_some_iff] at hi
        exact hi.1
      have hnone : s.branchDefect? counts.toArray pc = none := by
        rw [hcounts] at h
        cases hfind : (List.range s.code.size).findSome? (s.branchDefect? counts.toArray) with
        | some d => simp [hfind] at h
        | none => exact List.findSome?_eq_none_iff.1 hfind pc (List.mem_range.2 hpc)
      rw [branchDefect?, hi, Option.bind_some, ht] at hnone
      simp only [Array.getD_eq_getD_getElem?, List.getElem?_toArray] at hnone
      rw [hat, hat, List.getD_eq_getElem?_getD, List.getD_eq_getElem?_getD]
      by_contra hne
      rw [if_pos ⟨hlt, hne⟩] at hnone
      cases hnone

/-! ## Counts along the ways of execution -/

/-- A parameter is pushed where the area has room for it, and is pending afterwards. -/
theorem pendingAfter_param {pc : Nat} {op : Opcode} (hop : op = .param ∨ op = .parami)
    (h : s.pendingAfter pc pending op i = .ok after) :
    pending < s.maxParam.toNat ∧ after = pending + 1 := by
  rcases hop with rfl | rfl <;>
  · simp only [pendingAfter] at h
    split at h
    · cases h
      exact ⟨by assumption, rfl⟩
    · cases h

/-- A call takes parameters that are pending, and its results follow it. -/
theorem pendingAfter_call {pc : Nat} {op : Opcode} (hop : op = .call ∨ op = .callK)
    (h : s.pendingAfter pc pending op i = .ok after) :
    i.b.toNat ≤ pending ∧ i.c.toNat ≤ maxReturns ∧ s.resultsFollow pc i.c.toNat = true ∧
      after = pending - i.b.toNat := by
  rcases hop with rfl | rfl <;>
  · simp only [pendingAfter] at h
    split at h
    · cases h
    · split at h
      · cases h
      · split at h
        · cases h
          exact ⟨by omega, by omega, by assumption, rfl⟩
        · cases h

/-- Any other operation leaves the count as it is. -/
theorem pendingAfter_other {pc : Nat} {op : Opcode} (hop : op.countsParams = false)
    (h : s.pendingAfter pc pending op i = .ok after) : after = pending := by
  simp only [pendingAfter] at h
  split at h
  · cases hop
  · cases hop
  · cases hop
  · cases hop
  · cases h
    rfl

theorem countsParams_cases {op : Opcode} (hop : op.countsParams = true) :
    (op = .param ∨ op = .parami) ∨ op = .call ∨ op = .callK := by
  cases op <;> simp_all [Opcode.countsParams]

/-- The byte of a result instruction stands for the operation. -/
theorem ofByte?_result : Opcode.ofByte? Opcode.result.byte = some .result := by
  decide +kernel

/-- The instructions behind a call that `resultsFollow` it are result instructions. -/
theorem result_of_resultsFollow {pc count : Nat} (h : s.resultsFollow pc count = true) {k : Nat}
    (hk : k < count) : ∃ r, s.code[pc + 1 + k]? = some r ∧ r.opcode? = some .result := by
  have hall := List.all_eq_true.1 h k (List.mem_range.2 hk)
  rw [beq_iff_eq] at hall
  obtain ⟨r, hr, hop⟩ := Option.map_eq_some_iff.1 hall
  refine ⟨r, hr, ?_⟩
  rw [Instr.opcode?, hop, ofByte?_result]

namespace Accepted

/-- The operation of an instruction, its requirements and its effect on the count. -/
theorem instr (h : s.Accepted) {pc : Nat} (hi : s.code[pc]? = some i) :
    ∃ op, i.opcode? = some op ∧ (∀ n ∈ needs op pc i, n.Met s) ∧
      s.pendingAfter pc (s.pendingAt pc) op i = .ok (s.pendingAt (pc + 1)) :=
  checkInstr_eq_ok_iff.1 (h.checked hi)

/-- An operation that is no parameter and no call leaves the count. -/
theorem pendingAt_succ (h : s.Accepted) {pc : Nat} {op : Opcode} (hi : s.code[pc]? = some i)
    (hop : i.opcode? = some op) (hcount : op.countsParams = false) :
    s.pendingAt (pc + 1) = s.pendingAt pc := by
  obtain ⟨op', hop', _, hafter⟩ := h.instr hi
  rw [hop] at hop'
  cases hop'
  exact pendingAfter_other hcount hafter

/-- The count stays within the parameter area. -/
theorem pendingAt_le (h : s.Accepted) {pc : Nat} (hpc : pc ≤ s.code.size) :
    s.pendingAt pc ≤ s.maxParam.toNat := by
  induction pc with
  | zero =>
    rw [h.pendingAt_zero]
    omega
  | succ pc ih =>
    have hle := ih (by omega)
    have hi : s.code[pc]? = some s.code[pc] := Array.getElem?_eq_getElem (by omega)
    obtain ⟨op, _, _, hafter⟩ := h.instr hi
    cases hcounts : op.countsParams with
    | false =>
      rw [pendingAfter_other hcounts hafter]
      exact hle
    | true =>
      rcases countsParams_cases hcounts with hparam | hcall
      · have := pendingAfter_param hparam hafter
        omega
      · have := (pendingAfter_call hcall hafter).2.2.2
        omega

/-- The results of a call do not change the count. -/
theorem pendingAt_results (h : s.Accepted) {pc count : Nat}
    (hfollow : s.resultsFollow pc count = true) {k : Nat} (hk : k ≤ count) :
    s.pendingAt (pc + 1 + k) = s.pendingAt (pc + 1) := by
  induction k with
  | zero => rfl
  | succ k ih =>
    obtain ⟨r, hr, hop⟩ := result_of_resultsFollow hfollow (by omega : k < count)
    rw [← Nat.add_assoc, h.pendingAt_succ hr hop rfl, ih (by omega)]

/-- The code reaches beyond the results of a call. -/
theorem results_le {pc count : Nat} (hfollow : s.resultsFollow pc count = true)
    (hpc : pc < s.code.size) : pc + 1 + count ≤ s.code.size := by
  cases count with
  | zero => omega
  | succ n =>
    obtain ⟨r, hr, _⟩ := result_of_resultsFollow hfollow (by omega : n < n + 1)
    rw [Array.getElem?_eq_some_iff] at hr
    have := hr.1
    omega

end Accepted

end Script

end TierVm
