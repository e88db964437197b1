import TierVm.Exec.Host
import TierVm.Proofs.LoweredStep

/-!
# Where the results of a call are written

The interpreter lets a callee write results straight into the caller's registers.  Compiled code
gives it scratch cells for results that are no strings, with the old values in them, and copies all
of them back.  This module says exactly when that comes to the same.

* `DistinctTargets`: no register of another class than string receives two results of one call.
* `callSlots_scratch`: then a callee is given the very same slots in both modes, so nothing it does
  tells them apart.
* `losesResult_of_duplicate`: otherwise there is a register that receives two results.  When the
  callee writes the earlier of them only, the interpreter delivers that result, and compiled code
  replaces it by the old value of the register.
-/

namespace TierVm

open Activation

/-! ## Distinct targets -/

/-- No register of another class than string is named twice. -/
def DistinctTargets (targets : List Target) : Prop :=
  targets.Pairwise fun t t' => t = t' → t.cls = .string

instance (targets : List Target) : Decidable (DistinctTargets targets) :=
  inferInstanceAs (Decidable (targets.Pairwise _))

/-- The calls of a script have distinct targets. -/
def Script.DistinctResults (s : Script) : Prop :=
  ∀ {pc : Nat} {targets : List Target}, s.CallsAt pc targets → DistinctTargets targets

/-- The calls of a verified script have distinct targets. -/
def Function.DistinctResults : Function → Prop
  | .script s => s.script.verify = .ok () → s.script.DistinctResults
  | .native _ => True

/-- The calls of all verified scripts of a program have distinct targets. -/
def Program.DistinctResults (p : Program) : Prop := ∀ f ∈ p.functions, f.DistinctResults

theorem Script.distinctResults_iff {s : Script} :
    s.DistinctResults ↔ ∀ pc : Fin s.code.size,
      s.code[pc].opcode? = some .call ∨ s.code[pc].opcode? = some .callK →
        DistinctTargets (s.targetsAt pc s.code[pc].c.toNat) := by
  constructor
  · intro h pc hcall
    have hi : s.code[pc.val]? = some s.code[pc] := Array.getElem?_eq_getElem pc.isLt
    rcases hcall with hop | hop
    · exact h ⟨_, _, hi, hop, .inl rfl, rfl⟩
    · exact h ⟨_, _, hi, hop, .inr rfl, rfl⟩
  · rintro h pc targets ⟨i, op, hi, hop, hcall, rfl⟩
    obtain ⟨hlt, rfl⟩ := Array.getElem?_eq_some_iff.1 hi
    apply h ⟨pc, hlt⟩
    rcases hcall with rfl | rfl
    · exact .inl hop
    · exact .inr hop

instance (s : Script) : Decidable s.DistinctResults :=
  decidable_of_iff _ Script.distinctResults_iff.symm

instance (f : Function) : Decidable f.DistinctResults :=
  match f with
  | .script s => inferInstanceAs (Decidable (s.script.verify = .ok () → s.script.DistinctResults))
  | .native _ => inferInstanceAs (Decidable True)

instance (p : Program) : Decidable p.DistinctResults :=
  inferInstanceAs (Decidable (∀ f ∈ p.functions, f.DistinctResults))

section

variable {targets : List Target} {t : Target}

theorem DistinctTargets.index_eq (h : DistinctTargets targets) {i j : Nat}
    (hi : targets[i]? = some t) (hj : targets[j]? = some t) (ht : t.cls ≠ .string) : i = j := by
  obtain ⟨hi', hti⟩ := List.getElem?_eq_some_iff.1 hi
  obtain ⟨hj', htj⟩ := List.getElem?_eq_some_iff.1 hj
  rw [DistinctTargets, List.pairwise_iff_getElem] at h
  rcases Nat.lt_trichotomy i j with hlt | heq | hgt
  · have := h i j hi' hj' hlt (by rw [hti, htj])
    rw [hti] at this
    exact absurd this ht
  · exact heq
  · have := h j i hj' hi' hgt (by rw [hti, htj])
    rw [htj] at this
    exact absurd this ht

/-- The first mention of a target names it. -/
theorem getElem?_findIdx (h : t ∈ targets) : targets[targets.findIdx (· = t)]? = some t := by
  have hlt : targets.findIdx (· = t) < targets.length :=
    List.findIdx_lt_length_of_exists ⟨t, h, by simp⟩
  rw [List.getElem?_eq_getElem hlt]
  have := List.findIdx_getElem (w := hlt)
  simpa using this

/-- The cell of a slot belongs to a target that is the same as the slot's. -/
theorem getElem?_slotCells (cells : ResultCells) {k : Nat} (h : targets[k]? = some t) :
    ∃ c, (slotCells targets cells)[k]? = some c ∧ targets[c]? = some t ∧
      c = if cells.inPlace t then targets.findIdx (· = t) else k := by
  refine ⟨_, ?_, ?_, rfl⟩
  · simp [slotCells, List.getElem?_zipIdx, h]
  · split
    · exact getElem?_findIdx (List.mem_of_getElem? h)
    · exact h

/-- With distinct targets it makes no difference where results are written. -/
theorem slotCells_scratch (h : DistinctTargets targets) :
    slotCells targets .scratch = slotCells targets .registers := by
  apply List.ext_getElem?
  intro k
  cases hk : targets[k]? with
  | none =>
    have hlen := List.getElem?_eq_none_iff.1 hk
    rw [List.getElem?_eq_none_iff.2 (by simpa using hlen),
      List.getElem?_eq_none_iff.2 (by simpa using hlen)]
  | some t =>
    obtain ⟨c, hc, _, hcell⟩ := getElem?_slotCells .scratch hk
    obtain ⟨c', hc', ht', hcell'⟩ := getElem?_slotCells .registers hk
    rw [hc, hc']
    by_cases hstring : t.cls = .string
    · rw [hcell, hcell']
      simp [ResultCells.inPlace, hstring]
    · rw [hcell, h.index_eq ht' hk hstring]
      simp [ResultCells.inPlace, hstring]

/-- With distinct targets both modes give the callee the same slots. -/
theorem callSlots_scratch (h : DistinctTargets targets) (act : Activation) :
    act.callSlots targets .scratch = act.callSlots targets .registers := by
  rw [callSlots, callSlots, slotCells_scratch h]

end

/-! ## Slots of a call -/

namespace ReturnSlots

variable {r r' : ReturnSlots} {i k : Nat} {v : Value}

/-- Writing to a slot changes the slots that share its cell. -/
theorem get?_set (h : i < r.size) :
    (r.set i v).get? k = if r.cellOf[k]? = r.cellOf[i]? then some v else r.get? k := by
  have hi : r.cellOf[i]? = some r.cellOf[i] := Array.getElem?_eq_getElem h
  have hlt : r.cellOf[i] < r.cells.size := r.cellOf_lt _ (Array.getElem_mem h)
  simp only [set, hi, get?]
  cases hk : r.cellOf[k]? with
  | none => simp
  | some c =>
    simp only [Option.bind_some, Option.some.injEq]
    split
    · rename_i hc
      rw [hc]
      simp [hlt]
    · rename_i hc
      rw [Array.getElem?_setIfInBounds_ne (Ne.symm hc)]

/-- A write that succeeds leaves the classes of all slots. -/
theorem class?_write (h : r.write i v = .ok r') (k : Nat) : r'.class? k = r.class? k := by
  rw [write] at h
  cases hclass : r.class? i with
  | none =>
    rw [hclass] at h
    cases h
    rfl
  | some cls =>
    simp only [hclass] at h
    split at h
    · rename_i hcls
      cases h
      have hi : i < r.size := lt_size_of_class? hclass
      rw [class?, get?_set hi]
      split
      · rename_i hcell
        have hsame : r.get? k = r.get? i := by
          rw [get?, get?, hcell]
        rw [class?, hsame, ← class?, hclass, hcls]
        rfl
      · rfl
    · cases h

end ReturnSlots

section

variable {act : Activation} {targets : List Target} {cells : ResultCells} {slots : ReturnSlots}

/-- Each slot of a call holds the value of its target. -/
theorem get?_callSlots (hregs : ∀ t ∈ targets, t.index < act.regs.sizeOf t.cls)
    (hslots : act.callSlots targets cells = some slots) {k : Nat} {t : Target}
    (hk : targets[k]? = some t) : slots.get? k = act.regs.get? t.cls t.index := by
  obtain ⟨slots', hslots', hcells, hcellOf⟩ := callSlots_eq_some cells hregs
  rw [hslots] at hslots'
  cases hslots'
  obtain ⟨c, hc, ht, _⟩ := getElem?_slotCells cells hk
  obtain ⟨v, hv, _⟩ := Registers.get?_eq_some (hregs t (List.mem_of_getElem? hk))
  simp only [ReturnSlots.get?, hcellOf, hcells, List.getElem?_toArray, hc, Option.bind_some, heldIn,
    List.getElem?_map, ht, Option.map_some, hv, Option.getD_some]

/-- Each slot of a call has the class of its target. -/
theorem class?_callSlots (hregs : ∀ t ∈ targets, t.index < act.regs.sizeOf t.cls)
    (hslots : act.callSlots targets cells = some slots) {k : Nat} {t : Target}
    (hk : targets[k]? = some t) : slots.class? k = some t.cls := by
  obtain ⟨v, hv, hcls⟩ := Registers.get?_eq_some (hregs t (List.mem_of_getElem? hk))
  rw [ReturnSlots.class?, get?_callSlots hregs hslots hk, hv, Option.map_some, hcls]

end

/-! ## Receiving results -/

section

variable {slots : ReturnSlots} {regs : Registers} {t : Target}

theorem receive_append (xs ys : List (Target × Nat)) :
    receive slots (xs ++ ys) regs = receive slots ys (receive slots xs regs) := by
  induction xs generalizing regs with
  | nil => rfl
  | cons x rest ih =>
    obtain ⟨t, i⟩ := x
    simp only [List.cons_append, receive]
    split <;> exact ih

/-- Results for other registers leave a register. -/
theorem get?_receive_other {results : List (Target × Nat)}
    (hother : ∀ result ∈ results, result.1 ≠ t ∧ slots.class? result.2 = some result.1.cls) :
    (receive slots results regs).get? t.cls t.index = regs.get? t.cls t.index := by
  induction results generalizing regs with
  | nil => rfl
  | cons result rest ih =>
    obtain ⟨t', i⟩ := result
    obtain ⟨hne, hclass⟩ := hother _ (List.mem_cons_self ..)
    have hrest := fun regs => @ih regs fun result h => hother result (List.mem_cons_of_mem _ h)
    rw [receive]
    cases hput : (slots.get? i).bind (regs.put? t'.index) with
    | none => exact hrest regs
    | some regs' =>
      obtain ⟨v, hv, hregs'⟩ := Option.bind_eq_some_iff.1 hput
      rw [ReturnSlots.class?, hv, Option.map_some, Option.some.injEq] at hclass
      simp only [hrest]
      refine Registers.get?_put?_other hregs' ?_
      by_contra hsame
      rw [not_or, not_not, not_not, hclass] at hsame
      apply hne
      cases t
      cases t'
      simp_all

/-- A register holds the last result that it receives. -/
theorem get?_receive_last {xs ys : List (Target × Nat)} {m : Nat} {v : Value}
    (hlt : t.index < regs.sizeOf t.cls) (hm : slots.get? m = some v) (hv : v.regClass = t.cls)
    (hother : ∀ result ∈ ys, result.1 ≠ t ∧ slots.class? result.2 = some result.1.cls) :
    (receive slots (xs ++ (t, m) :: ys) regs).get? t.cls t.index = some v := by
  have hlt' : t.index < (receive slots xs regs).sizeOf v.regClass := by
    rw [hv, sizeOf_receive]
    exact hlt
  obtain ⟨regs', hregs'⟩ := Registers.put?_eq_some hlt'
  rw [receive_append, receive, hm, Option.bind_some, hregs', get?_receive_other hother, ← hv]
  exact Registers.get?_put?_self hregs'

end

/-! ## Targets that are named twice -/

theorem exists_last_mention {targets : List Target} {t : Target} (h : t ∈ targets) :
    ∃ before after, targets = before ++ t :: after ∧ t ∉ after := by
  induction targets with
  | nil => cases h
  | cons x rest ih =>
    by_cases hrest : t ∈ rest
    · obtain ⟨before, after, rfl, hafter⟩ := ih hrest
      exact ⟨x :: before, after, rfl, hafter⟩
    · rcases List.mem_cons.1 h with rfl | h
      · exact ⟨[], rest, rfl, hrest⟩
      · exact absurd h hrest

/-- Targets that are not distinct name a register a last time, and before. -/
theorem exists_duplicate {targets : List Target} (h : ¬ DistinctTargets targets) :
    ∃ t i before after, t.cls ≠ .string ∧ targets[i]? = some t ∧ i < before.length ∧
      targets = before ++ t :: after ∧ t ∉ after := by
  induction targets with
  | nil => exact absurd List.Pairwise.nil h
  | cons x rest ih =>
    by_cases hrest : DistinctTargets rest
    · rw [DistinctTargets, List.pairwise_cons] at h
      have hx : x.cls ≠ .string ∧ x ∈ rest := by
        by_contra hx
        apply h
        refine ⟨?_, hrest⟩
        intro t ht heq
        by_contra hstring
        rw [← heq] at ht
        exact hx ⟨hstring, ht⟩
      obtain ⟨before, after, rfl, hafter⟩ := exists_last_mention hx.2
      exact ⟨x, 0, x :: before, after, hx.1, rfl, by simp, rfl, hafter⟩
    · obtain ⟨t, i, before, after, hstring, hi, hlt, rfl, hafter⟩ := ih hrest
      exact ⟨t, i + 1, x :: before, after, hstring, hi, by simpa using hlt, rfl, hafter⟩

section

variable {act : Activation} {before after : List Target} {t : Target} {cells : ResultCells}
  {slots slots' : ReturnSlots}

/-- Behind a call, a register holds what the slot of its last mention holds. -/
theorem get?_resume_last
    (hregs : ∀ x ∈ before ++ t :: after, x.index < act.regs.sizeOf x.cls)
    (hslots : act.callSlots (before ++ t :: after) cells = some slots)
    (hclasses : ∀ k, slots'.class? k = slots.class? k) (hafter : t ∉ after) (memory : Memory) :
    (act.resume (before ++ t :: after) slots' memory).regs.get? t.cls t.index =
      slots'.get? before.length := by
  have hlast : (before ++ t :: after)[before.length]? = some t := by simp
  have hclass := class?_callSlots hregs hslots hlast
  rw [← hclasses, ReturnSlots.class?, Option.map_eq_some_iff] at hclass
  obtain ⟨v, hv, hcls⟩ := hclass
  show (receive slots' (before ++ t :: after).zipIdx act.regs).get? t.cls t.index = _
  rw [hv, List.zipIdx_append, List.zipIdx_cons, Nat.zero_add]
  apply get?_receive_last (hregs t (by simp)) hv hcls
  intro result hresult
  have hmem : result ∈ (before ++ t :: after).zipIdx := by
    rw [List.zipIdx_append, List.zipIdx_cons, Nat.zero_add]
    exact List.mem_append_right _ (List.mem_cons_of_mem _ hresult)
  refine ⟨?_, ?_⟩
  · rintro rfl
    exact hafter (List.fst_mem_of_mem_zipIdx hresult)
  · rw [hclasses]
    exact class?_callSlots hregs hslots (List.mem_zipIdx_iff_getElem?.1 hmem)

/-- A callee writes one slot, of the class of its target: the last slot of the target shows the
value if it has the same cell, and else what the register held. -/
theorem get?_resume_write
    (hregs : ∀ x ∈ before ++ t :: after, x.index < act.regs.sizeOf x.cls) (hafter : t ∉ after)
    {i : Nat} (hi : (before ++ t :: after)[i]? = some t) {v : Value} (hv : v.regClass = t.cls)
    (cells : ResultCells) :
    ∃ slots slots', act.callSlots (before ++ t :: after) cells = some slots ∧
      slots.write i v = .ok slots' ∧
      ∀ memory, (act.resume (before ++ t :: after) slots' memory).regs.get? t.cls t.index =
        if cells.inPlace t ∨ i = before.length then some v else act.regs.get? t.cls t.index := by
  obtain ⟨slots, hslots, _, hcellOf⟩ := callSlots_eq_some cells hregs
  have hlast : (before ++ t :: after)[before.length]? = some t := by simp
  have hwrite : slots.write i v = .ok (slots.set i v) := by
    rw [ReturnSlots.write, class?_callSlots hregs hslots hi]
    simp [hv]
  have hlt : i < slots.size := by
    rw [ReturnSlots.size, hcellOf, List.size_toArray, length_slotCells]
    exact (List.getElem?_eq_some_iff.1 hi).1
  refine ⟨slots, slots.set i v, hslots, hwrite, ?_⟩
  intro memory
  obtain ⟨c, hc, _, hcell⟩ := getElem?_slotCells cells hi
  obtain ⟨c', hc', _, hcell'⟩ := getElem?_slotCells cells hlast
  rw [get?_resume_last hregs hslots (ReturnSlots.class?_write hwrite) hafter,
    ReturnSlots.get?_set hlt, get?_callSlots hregs hslots hlast, hcellOf, List.getElem?_toArray,
    List.getElem?_toArray, hc, hc', hcell, hcell']
  by_cases hplace : cells.inPlace t
  · simp [hplace]
  · simp [hplace, eq_comm]

end

/-- A call with these targets loses a result in compiled code: there is a slot such that a callee
which writes a value there, and nothing else, delivers it to the register of an interpreted caller,
and leaves the register of a compiled caller as it was. -/
def Activation.LosesResult (act : Activation) (targets : List Target) : Prop :=
  ∃ t i, targets[i]? = some t ∧ ∀ v : Value, v.regClass = t.cls →
    ∃ direct direct' staged staged',
      act.callSlots targets .registers = some direct ∧ direct.write i v = .ok direct' ∧
      act.callSlots targets .scratch = some staged ∧ staged.write i v = .ok staged' ∧
      ∀ memory,
        (act.resume targets direct' memory).regs.get? t.cls t.index = some v ∧
        (act.resume targets staged' memory).regs.get? t.cls t.index =
          act.regs.get? t.cls t.index

/-- A call whose targets are not distinct loses a result. -/
theorem losesResult_of_duplicate {act : Activation} {targets : List Target}
    (hregs : ∀ x ∈ targets, x.index < act.regs.sizeOf x.cls) (h : ¬ DistinctTargets targets) :
    act.LosesResult targets := by
  obtain ⟨t, i, before, after, hstring, hi, hlt, rfl, hafter⟩ := exists_duplicate h
  refine ⟨t, i, hi, ?_⟩
  intro v hv
  obtain ⟨direct, direct', hdirect, hwrite, hshown⟩ :=
    get?_resume_write hregs hafter hi hv .registers
  obtain ⟨staged, staged', hstaged, hwrite', hshown'⟩ :=
    get?_resume_write hregs hafter hi hv .scratch
  refine ⟨direct, direct', staged, staged', hdirect, hwrite, hstaged, hwrite', ?_⟩
  intro memory
  rw [hshown, hshown']
  have hne : i ≠ before.length := by omega
  simp [ResultCells.inPlace, hstring, hne]

end TierVm
