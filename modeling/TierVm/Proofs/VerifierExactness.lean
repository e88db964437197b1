import Mathlib.Order.Bounds.Defs
import TierVm.Exec.Lowering
import TierVm.Proofs.OperandRules

/-!
# Verification is exact

`Script.verify` is a pass over the code that threads a count along, and a second pass over the
branches.  This module says what it decides, without mention of a pass.

* The counts.  `Script.CountsPending` is an assignment of counts of pending parameters to the
  instructions, one equation for each kind of instruction.  There is one (`exists_countsPending`).
* One instruction.  `Script.LocallyValid` puts the rules for operands and for counts together, and
  `exists_checkInstr_iff` says that this is what is checked.
* The pass.  `checkFrom_cases` is the induction over the code: all instructions are valid, or the
  pass stops at the first that is not.
* The branches.  `Script.Offends` is a branch to where the count is another one.
* `verify_exact` is the result.
-/

namespace TierVm

namespace Script

variable {s : Script} {pc pending : Nat} {i : Instr} {op : Opcode}

/-! ## Counts of pending parameters -/

/-- An assignment of counts of pending parameters to the instructions and the end of the code: none
at the start, one more behind a parameter, those of the call fewer behind a call, and as many
behind any other instruction. -/
structure CountsPending (s : Script) (p : Nat → Nat) : Prop where
  zero : p 0 = 0
  param : ∀ {pc : Nat} {i : Instr} {op : Opcode}, s.code[pc]? = some i → i.opcode? = some op →
    op = .param ∨ op = .parami → p (pc + 1) = p pc + 1
  call : ∀ {pc : Nat} {i : Instr} {op : Opcode}, s.code[pc]? = some i → i.opcode? = some op →
    op = .call ∨ op = .callK → p (pc + 1) = p pc - i.b.toNat
  other : ∀ {pc : Nat} {i : Instr}, s.code[pc]? = some i →
    (∀ op, i.opcode? = some op → op.countsParams = false) → p (pc + 1) = p pc

/-- The count in front of an instruction, in the order of the code. -/
def linearCount (s : Script) : Nat → Nat
  | 0 => 0
  | pc + 1 =>
    match (s.code[pc]?).bind fun i => i.opcode?.map (·, i) with
    | some (op, i) => Lowering.pendingAfter (s.linearCount pc) op i
    | none => s.linearCount pc

theorem exists_countsPending (s : Script) : ∃ p, s.CountsPending p := by
  refine ⟨s.linearCount, rfl, ?_, ?_, ?_⟩
  · intro pc i op hi hop hparam
    rw [linearCount, hi, Option.bind_some, hop]
    rcases hparam with rfl | rfl <;> rfl
  · intro pc i op hi hop hcall
    rw [linearCount, hi, Option.bind_some, hop]
    rcases hcall with rfl | rfl <;> rfl
  · intro pc i hi hother
    rw [linearCount, hi, Option.bind_some]
    cases hop : i.opcode? with
    | none => rfl
    | some op =>
      have hcount := hother op hop
      simp only [Option.map_some, Lowering.pendingAfter]
      split
      all_goals first | rfl | cases hcount

/-- The parameter area has room for a parameter, and a call finds those it takes. -/
def RoomForParams (s : Script) (pending : Nat) (i : Instr) : Opcode → Prop
  | .param | .parami => pending < s.maxParam.toNat
  | .call | .callK => i.b.toNat ≤ pending
  | _ => True

/-- The conditions on one instruction in front of which `pending` parameters are pending. -/
def ValidAt (s : Script) (pc pending : Nat) (i : Instr) : Prop :=
  ∃ op, i.opcode? = some op ∧ s.OperandsValid pc i op ∧ s.RoomForParams pending i op

/-- The conditions on the instruction at `pc`, with the counts of an assignment. -/
def LocallyValid (s : Script) (p : Nat → Nat) (pc : Nat) : Prop :=
  ∃ i, s.code[pc]? = some i ∧ s.ValidAt pc (p pc) i

/-! ## The check of one instruction -/

/-- The count behind an instruction is found just if there is room for parameters and the results
of a call follow it. -/
theorem exists_pendingAfter_iff :
    (∃ after, s.pendingAfter pc pending op i = .ok after) ↔
      s.RoomForParams pending i op ∧ (op = .call ∨ op = .callK → s.CallResults pc i) := by
  cases hcount : op.countsParams with
  | false =>
    have hafter : s.pendingAfter pc pending op i = .ok pending := by
      simp only [pendingAfter]
      split
      all_goals first | rfl | cases hcount
    have hroom : s.RoomForParams pending i op := by
      simp only [RoomForParams]
      split
      all_goals trivial
    refine ⟨fun _ => ⟨hroom, ?_⟩, fun _ => ⟨pending, hafter⟩⟩
    rintro (rfl | rfl) <;> cases hcount
  | true =>
    rcases countsParams_cases hcount with hparam | hcall
    · constructor
      · rintro ⟨after, hafter⟩
        have hroom := (pendingAfter_param hparam hafter).1
        rcases hparam with rfl | rfl
        · exact ⟨hroom, by simp⟩
        · exact ⟨hroom, by simp⟩
      · rintro ⟨hroom, _⟩
        rcases hparam with rfl | rfl
        · exact ⟨_, if_pos hroom⟩
        · exact ⟨_, if_pos hroom⟩
    · constructor
      · rintro ⟨after, hafter⟩
        obtain ⟨hroom, hcount, hfollow, _⟩ := pendingAfter_call hcall hafter
        refine ⟨?_, fun _ => ⟨hcount, resultsFollow_iff.1 hfollow⟩⟩
        rcases hcall with rfl | rfl
        · exact hroom
        · exact hroom
      · rintro ⟨hroom, hresults⟩
        obtain ⟨hcount, hfollow⟩ := hresults hcall
        rw [← resultsFollow_iff] at hfollow
        refine ⟨pending - i.b.toNat, ?_⟩
        rcases hcall with rfl | rfl
        · simp only [RoomForParams] at hroom
          simp only [pendingAfter]
          rw [if_neg (by omega), if_neg (by omega), if_pos hfollow]
        · simp only [RoomForParams] at hroom
          simp only [pendingAfter]
          rw [if_neg (by omega), if_neg (by omega), if_pos hfollow]

/-- An instruction passes its check just if it is valid. -/
theorem exists_checkInstr_iff :
    (∃ after, s.checkInstr pc pending i = .ok after) ↔ s.ValidAt pc pending i := by
  simp only [checkInstr_eq_ok_iff, ValidAt]
  constructor
  · rintro ⟨after, op, hop, hmet, hafter⟩
    obtain ⟨hroom, hresults⟩ := exists_pendingAfter_iff.1 ⟨after, hafter⟩
    exact ⟨op, hop, needs_met_iff.1 ⟨hmet, hresults⟩, hroom⟩
  · rintro ⟨op, hop, hvalid, hroom⟩
    obtain ⟨hmet, hresults⟩ := needs_met_iff.2 hvalid
    obtain ⟨after, hafter⟩ := exists_pendingAfter_iff.2 ⟨hroom, hresults⟩
    exact ⟨after, op, hop, hmet, hafter⟩

/-- The count behind an instruction that passes its check is the one of the assignment. -/
theorem CountsPending.after_eq {p : Nat → Nat} {after : Nat} (hp : s.CountsPending p)
    (hi : s.code[pc]? = some i) (h : s.checkInstr pc (p pc) i = .ok after) :
    after = p (pc + 1) := by
  obtain ⟨op, hop, _, hafter⟩ := checkInstr_eq_ok_iff.1 h
  cases hcount : op.countsParams with
  | false =>
    have hother : ∀ op', i.opcode? = some op' → op'.countsParams = false := by
      intro op' hop'
      rw [hop] at hop'
      cases hop'
      exact hcount
    rw [pendingAfter_other hcount hafter, hp.other hi hother]
  | true =>
    rcases countsParams_cases hcount with hparam | hcall
    · rw [(pendingAfter_param hparam hafter).2, hp.param hi hop hparam]
    · rw [(pendingAfter_call hcall hafter).2.2.2, hp.call hi hop hcall]

end Script

/-- The instruction whose own conditions a defect reports.  Defects of branches and labels are
about more than one instruction. -/
def Defect.instr? : Defect → Option Nat
  | .unknownOpcode pc _ | .registerOutOfRange pc _ _ | .constantOutOfRange pc _ _
  | .jumpOutOfRange pc _ | .invalidOperand pc _ | .paramOverflow pc _ | .paramUnderflow pc _ _
  | .tooManyResults pc _ | .missingResult pc _ => some pc
  | .paramMismatch .. | .unboundLabel _ => none

namespace Script

variable {s : Script} {pc pending : Nat} {i : Instr} {d : Defect} {p : Nat → Nat}

theorem instr?_of_require {n : Need} (h : s.require pc n = .error d) : d.instr? = some pc := by
  cases n with
  | reg cls k | konst cls k | target t | valid ok what =>
    simp only [require] at h
    split at h
    · cases h
    · cases h
      rfl

theorem instr?_of_requireAll {ns : List Need} (h : s.requireAll pc ns = .error d) :
    d.instr? = some pc := by
  induction ns with
  | nil => cases h
  | cons n rest ih =>
    rw [requireAll] at h
    cases hn : s.require pc n with
    | ok u =>
      rw [hn] at h
      exact ih h
    | error e =>
      rw [hn] at h
      cases h
      exact instr?_of_require hn

theorem instr?_of_pendingAfter {op : Opcode} (h : s.pendingAfter pc pending op i = .error d) :
    d.instr? = some pc := by
  simp only [pendingAfter] at h
  split at h
  all_goals
    repeat' split at h
    all_goals first | cases h; rfl | cases h

/-- A defect that the check of an instruction finds is one of that instruction. -/
theorem instr?_of_checkInstr (h : s.checkInstr pc pending i = .error d) :
    d.instr? = some pc := by
  rw [checkInstr] at h
  cases hop : i.opcode? with
  | none =>
    rw [hop] at h
    cases h
    rfl
  | some op =>
    simp only [hop] at h
    cases hneeds : s.requireAll pc (needs op pc i) with
    | error e =>
      rw [hneeds] at h
      cases h
      exact instr?_of_requireAll hneeds
    | ok u =>
      rw [hneeds] at h
      exact instr?_of_pendingAfter h

/-! ## The pass over the code -/

/-- The pass from `pc` on finds the counts of the assignment and all instructions valid, or it
stops at the first that is not. -/
theorem checkFrom_cases (hp : s.CountsPending p) {is : List Instr} {pc : Nat}
    (his : ∀ k, is[k]? = s.code[pc + k]?) :
    (∃ counts, s.checkFrom is pc (p pc) = .ok counts ∧
      (∀ k ≤ is.length, counts[k]? = some (p (pc + k))) ∧
      ∀ k < is.length, s.LocallyValid p (pc + k)) ∨
    ∃ d, s.checkFrom is pc (p pc) = .error d ∧
      ∃ k < is.length, d.instr? = some (pc + k) ∧ ¬ s.LocallyValid p (pc + k) ∧
        ∀ j < k, s.LocallyValid p (pc + j) := by
  induction is generalizing pc with
  | nil =>
    refine .inl ⟨[p pc], rfl, ?_, ?_⟩
    · intro k hk
      obtain rfl : k = 0 := by simpa using hk
      rfl
    · intro k hk
      simp at hk
  | cons i rest ih =>
    have hi : s.code[pc]? = some i := (his 0).symm
    have hrest : ∀ k, rest[k]? = s.code[pc + 1 + k]? := by
      intro k
      have := his (k + 1)
      rwa [List.getElem?_cons_succ, show pc + (k + 1) = pc + 1 + k by omega] at this
    cases hcheck : s.checkInstr pc (p pc) i with
    | error d =>
      refine .inr ⟨d, by rw [checkFrom, hcheck], 0, by simp, instr?_of_checkInstr hcheck, ?_, ?_⟩
      · rintro ⟨j, hj, hvalid⟩
        rw [Nat.add_zero, hi] at hj
        cases hj
        obtain ⟨after, hafter⟩ := exists_checkInstr_iff.2 hvalid
        rw [Nat.add_zero, hcheck] at hafter
        cases hafter
      · intro j hj
        omega
    | ok after =>
      obtain rfl := hp.after_eq hi hcheck
      have hvalid : s.LocallyValid p pc := ⟨i, hi, exists_checkInstr_iff.1 ⟨_, hcheck⟩⟩
      rcases ih hrest with ⟨counts, hcounts, hat, hall⟩ | ⟨d, hd, k, hk, hpc, hbad, hbefore⟩
      · refine .inl ⟨p pc :: counts, by simp only [checkFrom, hcheck, hcounts], ?_, ?_⟩
        · rintro (_ | k) hk
          · rfl
          · rw [List.getElem?_cons_succ, hat k (by simpa using hk)]
            congr 2
            omega
        · rintro (_ | k) hk
          · exact hvalid
          · rw [show pc + (k + 1) = pc + 1 + k by omega]
            exact hall k (by simpa using hk)
      · have hshift : pc + 1 + k = pc + (k + 1) := by omega
        rw [hshift] at hpc hbad
        refine .inr ⟨d, by simp only [checkFrom, hcheck, hd], k + 1, by simpa using hk, hpc,
          hbad, ?_⟩
        rintro (_ | j) hj
        · exact hvalid
        · rw [show pc + (j + 1) = pc + 1 + j by omega]
          exact hbefore j (by omega)

/-- The whole pass. -/
theorem pendingCounts_cases (hp : s.CountsPending p) :
    (∃ counts, s.pendingCounts = .ok counts ∧
      (∀ pc ≤ s.code.size, counts[pc]? = some (p pc)) ∧
      ∀ pc < s.code.size, s.LocallyValid p pc) ∨
    ∃ d, s.pendingCounts = .error d ∧ ∃ pc, d.instr? = some pc ∧
      IsLeast {pc | pc < s.code.size ∧ ¬ s.LocallyValid p pc} pc := by
  have hcode : ∀ k, s.code.toList[k]? = s.code[0 + k]? := by simp
  have hcases := checkFrom_cases hp hcode
  simp only [Nat.zero_add, Array.length_toList, hp.zero] at hcases
  rcases hcases with ⟨counts, hcounts, hat, hall⟩ | ⟨d, hd, pc, hlt, hpc, hbad, hbefore⟩
  · exact .inl ⟨counts, hcounts, hat, hall⟩
  · refine .inr ⟨d, hd, pc, hpc, ⟨hlt, hbad⟩, ?_⟩
    rintro pc' ⟨_, hbad'⟩
    by_contra hlt'
    exact hbad' (hbefore pc' (by omega))

/-! ## Branches -/

/-- The operations that compare or test, and may skip the next instruction. -/
inductive MaySkip : Opcode → Prop where
  | test : MaySkip .test
  | testn : MaySkip .testn
  | intCmp (cmp : IntCmp) (form : Form) : MaySkip (.intCmp cmp form)
  | floatCmp (cmp : FloatCmp) (form : Form) : MaySkip (.floatCmp cmp form)
  | cmps : MaySkip .cmps
  | eqaR : MaySkip .eqaR
  | eqaK : MaySkip .eqaK

/-- The instruction at an index is a branch, and it leads to another. -/
inductive Branch (s : Script) (pc : Nat) : Nat → Prop where
  | jump {i : Instr} {target : Nat} (hi : s.code[pc]? = some i) (hop : i.opcode? = some .jmp)
      (htarget : (target : Int) = (pc : Int) + 1 + i.abc.toInt) : Branch s pc target
  | skip {i : Instr} {op : Opcode} (hi : s.code[pc]? = some i) (hop : i.opcode? = some op)
      (hskip : MaySkip op) : Branch s pc (pc + 2)

/-- A branch leads into the code, to where the count is not the one behind the branch. -/
def Offends (s : Script) (p : Nat → Nat) (pc : Nat) : Prop :=
  ∃ target, s.Branch pc target ∧ target < s.code.size ∧ p target ≠ p (pc + 1)

theorem skips_iff {op : Opcode} : op.skips = true ↔ MaySkip op := by
  constructor
  · intro h
    cases op with
    | test => exact .test
    | testn => exact .testn
    | intCmp cmp form => exact .intCmp cmp form
    | floatCmp cmp form => exact .floatCmp cmp form
    | cmps => exact .cmps
    | eqaR => exact .eqaR
    | eqaK => exact .eqaK
    | _ => cases h
  · intro h
    cases h <;> rfl

theorem branchTarget?_jmp (hop : i.opcode? = some .jmp) :
    branchTarget? pc i = some (jumpTarget pc i).toNat := by
  simp only [branchTarget?, hop]

theorem branchTarget?_other {op : Opcode} (hop : i.opcode? = some op) (hne : op ≠ .jmp) :
    branchTarget? pc i = if op.skips then some (pc + 2) else none := by
  simp only [branchTarget?, hop]

/-- The branches of valid code are those that the second pass looks at. -/
theorem branchTarget?_iff (hvalid : s.LocallyValid p pc) {target : Nat} :
    (s.code[pc]?).bind (branchTarget? pc) = some target ↔ s.Branch pc target := by
  obtain ⟨i, hi, op, hop, hoperands, _⟩ := hvalid
  rw [hi, Option.bind_some]
  by_cases hjmp : op = .jmp
  · subst hjmp
    rw [branchTarget?_jmp hop, Option.some.injEq, jumpTarget]
    cases hoperands with
    | jmp hlow _ =>
      constructor
      · intro h
        exact .jump hi hop (by omega)
      · intro h
        cases h with
        | jump hi' _ htarget =>
          rw [hi] at hi'
          cases hi'
          omega
        | skip hi' hop' hskip =>
          rw [hi] at hi'
          cases hi'
          rw [hop] at hop'
          cases hop'
          cases hskip
  · rw [branchTarget?_other hop hjmp]
    constructor
    · intro h
      split at h
      · next hskips =>
        cases h
        exact .skip hi hop (skips_iff.1 hskips)
      · cases h
    · intro h
      cases h with
      | jump hi' hop' _ =>
        rw [hi] at hi'
        cases hi'
        rw [hop] at hop'
        cases hop'
        exact absurd rfl hjmp
      | skip hi' hop' hskip =>
        rw [hi] at hi'
        cases hi'
        rw [hop] at hop'
        cases hop'
        rw [if_pos (skips_iff.2 hskip)]

/-- The second pass reports the branches that offend, with both counts. -/
theorem branchDefect?_eq_some_iff {counts : List Nat}
    (hat : ∀ pc ≤ s.code.size, counts[pc]? = some (p pc)) (hpc : pc < s.code.size)
    (hvalid : s.LocallyValid p pc) :
    s.branchDefect? counts.toArray pc = some d ↔
      ∃ target, s.Branch pc target ∧ target < s.code.size ∧ p target ≠ p (pc + 1) ∧
        d = .paramMismatch pc target (p (pc + 1)) (p target) := by
  have hgetD : ∀ k ≤ s.code.size, counts.toArray.getD k 0 = p k := by
    intro k hk
    rw [Array.getD_eq_getD_getElem?, List.getElem?_toArray, hat k hk, Option.getD_some]
  rw [branchDefect?]
  cases htarget : (s.code[pc]?).bind (branchTarget? pc) with
  | none =>
    constructor
    · intro h
      cases h
    · rintro ⟨target, hbranch, _⟩
      rw [← branchTarget?_iff hvalid, htarget] at hbranch
      cases hbranch
  | some target =>
    have hbranch : s.Branch pc target := (branchTarget?_iff hvalid).1 htarget
    have honly : ∀ target', s.Branch pc target' → target' = target := by
      intro target' hbranch'
      rw [← branchTarget?_iff hvalid, htarget] at hbranch'
      cases hbranch'
      rfl
    have hbehind := hgetD (pc + 1) (by omega)
    simp only [hbehind]
    constructor
    · intro h
      split at h
      · next hoff =>
        rw [hgetD target (by omega)] at hoff h
        cases h
        exact ⟨target, hbranch, hoff.1, hoff.2, rfl⟩
      · cases h
    · rintro ⟨target', hbranch', hlt, hne, rfl⟩
      obtain rfl := honly target' hbranch'
      rw [hgetD target' (by omega), if_pos ⟨hlt, hne⟩]

/-- A search over the indices finds something at the first where there is something. -/
theorem findSome?_range {α : Type} {f : Nat → Option α} {x : α} {n : Nat}
    (h : (List.range n).findSome? f = some x) : ∃ k < n, f k = some x ∧ ∀ j < k, f j = none := by
  induction n with
  | zero => cases h
  | succ n ih =>
    rw [List.range_succ, List.findSome?_append] at h
    cases hbefore : (List.range n).findSome? f with
    | some y =>
      rw [hbefore] at h
      cases h
      obtain ⟨k, hk, hx, hnone⟩ := ih hbefore
      exact ⟨k, by omega, hx, hnone⟩
    | none =>
      rw [hbefore] at h
      refine ⟨n, by omega, by simpa using h, ?_⟩
      intro j hj
      exact List.findSome?_eq_none_iff.1 hbefore j (List.mem_range.2 hj)

/-- What verification comes to, with the counts of an assignment. -/
theorem verify_cases (hp : s.CountsPending p) :
    (s.verify = .ok () ∧ (∀ pc < s.code.size, s.LocallyValid p pc) ∧ ∀ pc, ¬ s.Offends p pc) ∨
    (∃ d, s.verify = .error d ∧ ∃ pc, d.instr? = some pc ∧
      IsLeast {pc | pc < s.code.size ∧ ¬ s.LocallyValid p pc} pc) ∨
    ((∀ pc < s.code.size, s.LocallyValid p pc) ∧
      ∃ pc target, s.verify = .error (.paramMismatch pc target (p (pc + 1)) (p target)) ∧
        s.Branch pc target ∧ IsLeast {pc | s.Offends p pc} pc) := by
  rcases pendingCounts_cases hp with ⟨counts, hcounts, hat, hall⟩ | ⟨d, hd, hfirst⟩
  · have hsize : ∀ pc target, s.Branch pc target → pc < s.code.size := by
      intro pc target hbranch
      cases hbranch with
      | jump hi | skip hi => exact (Array.getElem?_eq_some_iff.1 hi).1
    have hdefect : ∀ pc < s.code.size, s.Offends p pc →
        s.branchDefect? counts.toArray pc ≠ none := by
      rintro pc hpc ⟨target, hbranch, hlt, hne⟩ hnone
      have hsome := (branchDefect?_eq_some_iff hat hpc (hall pc hpc)).2
        ⟨target, hbranch, hlt, hne, rfl⟩
      rw [hnone] at hsome
      cases hsome
    cases hfind : (List.range s.code.size).findSome? (s.branchDefect? counts.toArray) with
    | none =>
      refine .inl ⟨by simp only [verify, hcounts, hfind], hall, ?_⟩
      intro pc hoff
      have hpc : pc < s.code.size := by
        obtain ⟨target, hbranch, _⟩ := hoff
        exact hsize pc target hbranch
      exact hdefect pc hpc hoff (List.findSome?_eq_none_iff.1 hfind pc (List.mem_range.2 hpc))
    | some d =>
      obtain ⟨pc, hpc, hd, hnone⟩ := findSome?_range hfind
      obtain ⟨target, hbranch, hlt, hne, rfl⟩ :=
        (branchDefect?_eq_some_iff hat hpc (hall pc hpc)).1 hd
      refine .inr (.inr ⟨hall, pc, target, by simp only [verify, hcounts, hfind], hbranch,
        ⟨target, hbranch, hlt, hne⟩, ?_⟩)
      intro pc' hoff
      by_contra hlt'
      exact hdefect pc' (by omega) hoff (hnone pc' (by omega))
  · exact .inr (.inl ⟨d, by simp only [verify, hd], hfirst⟩)

end Script

/-! ## The verdict -/

/-- Verification accepts a script just if its instructions are valid with the counts of pending
parameters that follow from them, and branches lead to where the count is the one behind the
branch.  A defect of an instruction is reported for the first instruction that is not valid; a
mismatch is reported if all instructions are valid, for the first branch that offends. -/
theorem verify_exact (s : Script) :
    (s.verify = .ok () ↔
      ∃ p, s.CountsPending p ∧ (∀ pc < s.code.size, s.LocallyValid p pc) ∧
        ∀ pc, ¬ s.Offends p pc) ∧
    ∃ p, s.CountsPending p ∧ ∀ d, s.verify = .error d →
      (∃ pc, d.instr? = some pc ∧ IsLeast {pc | pc < s.code.size ∧ ¬ s.LocallyValid p pc} pc) ∨
      ((∀ pc < s.code.size, s.LocallyValid p pc) ∧
        ∃ pc target, d = .paramMismatch pc target (p (pc + 1)) (p target) ∧
          s.Branch pc target ∧ IsLeast {pc | s.Offends p pc} pc) := by
  obtain ⟨p, hp⟩ := s.exists_countsPending
  refine ⟨⟨?_, ?_⟩, p, hp, ?_⟩
  · intro hok
    rcases Script.verify_cases hp with ⟨_, hvalid, hbranches⟩ | ⟨d, hd, _⟩ | ⟨_, pc, target, hd, _⟩
    · exact ⟨p, hp, hvalid, hbranches⟩
    · rw [hok] at hd
      cases hd
    · rw [hok] at hd
      cases hd
  · rintro ⟨p', hp', hvalid, hbranches⟩
    rcases Script.verify_cases hp' with ⟨hok, _⟩ | ⟨_, _, pc, _, hbad, _⟩ | ⟨_, pc, _, _, _, hoff, _⟩
    · exact hok
    · exact absurd (hvalid pc hbad.1) hbad.2
    · exact absurd hoff (hbranches pc)
  · intro d hd
    rcases Script.verify_cases hp with ⟨hok, _⟩ | ⟨d', hd', hfirst⟩ |
      ⟨hvalid, pc, target, hd', hfirst⟩
    · rw [hok] at hd
      cases hd
    · rw [hd'] at hd
      cases hd
      exact .inl hfirst
    · rw [hd'] at hd
      cases hd
      exact .inr ⟨hvalid, pc, target, rfl, hfirst⟩

/-- A script that pushes a parameter, or jumps over the push. -/
def skipsParam : Script where
  name := "skips"
  code := #[.make .jmp 1 0 0, .make .parami 7 0 0, .make .nop 0 0 0]
  maxParam := 1

/-- Where the ways meet again, one has a parameter pending and the other has none: all instructions
are valid, and the jump is the first branch that offends. -/
theorem verify_exact_skipsParam :
    skipsParam.verify = .error (.paramMismatch 0 2 0 1) ∧
      ∃ p, skipsParam.CountsPending p ∧ (∀ pc < 3, skipsParam.LocallyValid p pc) ∧
        IsLeast {pc | skipsParam.Offends p pc} 0 := by
  have hverify : skipsParam.verify = .error (.paramMismatch 0 2 0 1) := by decide +kernel
  obtain ⟨p, hp, hdefect⟩ := (verify_exact skipsParam).2
  refine ⟨hverify, p, hp, ?_⟩
  rcases hdefect _ hverify with ⟨_, hpc, _⟩ | ⟨hvalid, pc, target, hd, _, hfirst⟩
  · cases hpc
  · injection hd with hpc
    subst hpc
    exact ⟨hvalid, hfirst⟩

end TierVm
