import Mathlib.Data.List.Nodup
import TierVm.Proofs.StoredResults

/-!
# Activations are isolated

A call hands the callee slots that lead into the caller's own registers, or into cells that are
copied there afterwards, and strings by reference.  This module says what a caller sees of all
that: the results that were stored for it, and nothing else.

* `separate_callSlots`: a call whose results go to distinct registers has a cell for each of them,
  in both modes.
* `get?_resume_target` and `get?_resume_other` are the registers behind a call.
* `activation_isolated` puts them together with what a callee stores.
-/

namespace TierVm

open Activation

variable {σ : Type}

section

variable {act : Activation} {targets : List Target} {cells : ResultCells}
  {slots slots' : ReturnSlots}

/-- Slots for distinct registers have cells of their own. -/
theorem separate_callSlots (hregs : ∀ t ∈ targets, t.index < act.regs.sizeOf t.cls)
    (hdistinct : targets.Nodup) (hslots : act.callSlots targets cells = some slots) :
    slots.Separate ∧ slots.size = targets.length := by
  obtain ⟨slots', hslots', _, hcellOf⟩ := callSlots_eq_some cells hregs
  rw [hslots] at hslots'
  cases hslots'
  have hsize : slots.size = targets.length := by
    rw [ReturnSlots.size, hcellOf, List.size_toArray, length_slotCells]
  -- The cell of a slot belongs to a target that is the slot's own, so it is the slot's number.
  have hown : ∀ k < slots.size, slots.cellOf[k]? = some k := by
    intro k hk
    have hlt : k < targets.length := by omega
    obtain ⟨c, hc, htarget, _⟩ := getElem?_slotCells cells (List.getElem?_eq_getElem hlt)
    obtain ⟨hclt, heq⟩ := List.getElem?_eq_some_iff.1 htarget
    rw [hcellOf, List.getElem?_toArray, hc, hdistinct.getElem_inj_iff.1 heq]
  refine ⟨?_, hsize⟩
  intro i hi j hj hcells
  rw [hown i hi, hown j hj] at hcells
  exact Option.some.inj hcells

/-- Behind a call with distinct targets, a target holds what its slot holds. -/
theorem get?_resume_target (hregs : ∀ t ∈ targets, t.index < act.regs.sizeOf t.cls)
    (hdistinct : targets.Nodup) (hslots : act.callSlots targets cells = some slots)
    (hclasses : ∀ k, slots'.class? k = slots.class? k) {k : Nat} {t : Target}
    (hk : targets[k]? = some t) (memory : Memory) :
    (act.resume targets slots' memory).regs.get? t.cls t.index = slots'.get? k := by
  obtain ⟨before, after, rfl, rfl⟩ :
      ∃ before after, targets = before ++ t :: after ∧ before.length = k := by
    obtain ⟨hlt, rfl⟩ := List.getElem?_eq_some_iff.1 hk
    refine ⟨targets.take k, targets.drop (k + 1), ?_, ?_⟩
    · rw [← List.drop_eq_getElem_cons hlt, List.take_append_drop]
    · rw [List.length_take]
      omega
  have hafter : t ∉ after := by
    rw [List.nodup_append] at hdistinct
    exact (List.nodup_cons.1 hdistinct.2.1).1
  exact get?_resume_last hregs hslots hclasses hafter memory

/-- Behind a call, a register that is no target holds what it held. -/
theorem get?_resume_other (hregs : ∀ t ∈ targets, t.index < act.regs.sizeOf t.cls)
    (hslots : act.callSlots targets cells = some slots)
    (hclasses : ∀ k, slots'.class? k = slots.class? k) {t : Target} (ht : t ∉ targets)
    (memory : Memory) :
    (act.resume targets slots' memory).regs.get? t.cls t.index = act.regs.get? t.cls t.index := by
  apply get?_receive_other
  intro result hresult
  refine ⟨?_, ?_⟩
  · rintro rfl
    exact ht (List.fst_mem_of_mem_zipIdx hresult)
  · rw [hclasses]
    exact class?_callSlots hregs hslots (List.mem_zipIdx_iff_getElem?.1 hresult)

end

/-! ## Calls of verified scripts -/

/-- The call that an activation of a verified script makes, taken apart: the results that it asks
for, the slots for them and the parameters that it takes. -/
theorem Mode.call_cases {s : Script} {act act' : Activation}
    {effectAt : Activation → Option (Except Trap Effect)} (hmode : Mode s effectAt)
    (hverify : s.verify = .ok ()) (hfit : act.Fits s) {op : Opcode} {i : Instr}
    (hi : s.code[act.pc]? = some i) (hop : i.opcode? = some op) (hcall : op = .call ∨ op = .callK)
    {e : Effect} {callee : Address} {args : List Argument} {slots : ReturnSlots}
    {targets : List Target} (heffect : effectAt act = some (.ok e))
    (hperform : act.perform e = .ok (.call act' callee args slots targets)) :
    targets = s.targetsAt act.pc i.c.toNat ∧
      (∀ t ∈ targets, t.index < act.regs.sizeOf t.cls) ∧
      (∃ cells, act.callSlots targets cells = some slots) ∧
      act' = { act with numParam := act.numParam - i.b.toNat } := by
  obtain ⟨first, count, cells, rfl, rfl, hslots, _⟩ := perform_eq_call hperform
  obtain ⟨_, _, _, _, _, hcallsAt, hregs, _⟩ := hmode.sound hverify hfit heffect
  obtain ⟨i', op', hi', _, _, rfl⟩ := hcallsAt
  rw [hi] at hi'
  cases hi'
  obtain ⟨_, _, _, _, _, _, htakes, _⟩ := hmode.call_effect hverify hfit hi hop hcall heffect
  cases htakes
  exact ⟨rfl, fun t ht => hfit.lt (hregs t ht), ⟨cells, hslots⟩, rfl⟩

/-- A call whose results go to distinct registers, made by a verified script in either mode, to any
function that returns: the caller goes on in one state.  There each of these registers holds the
last value that the callee stored in its slot, or its old value if the callee stored none.  All
other registers, all constants and the parameters that the call did not take are as before. -/
theorem activation_isolated {p : Program} {d : Dispatcher σ} {s : Script}
    (hverify : s.verify = .ok ()) {effectAt : Activation → Option (Except Trap Effect)}
    (hmode : Mode s effectAt) {act : Activation} (hfit : act.Fits s) {i : Instr} {op : Opcode}
    (hi : s.code[act.pc]? = some i) (hop : i.opcode? = some op) (hcall : op = .call ∨ op = .callK)
    (hdistinct : (s.targetsAt act.pc i.c.toNat).Nodup) {amb : Ambient σ} {fuel : Nat}
    {w : Invocation σ} (hasks : Asks p.size fuel effectAt (act, amb) w) {r : Result σ}
    {count : Nat} (hrun : w.run p d = .ok r) (hfinished : r.outcome = .finished count)
    (self : FunctionId) :
    ∃ after : Activation,
      (∀ next, Moves p.size (invoke p d fuel) self effectAt (act, amb) next ↔
        next = (after, r.ambient)) ∧
      (∃ stores, w.Delivers p d stores r) ∧
      (∀ stores, w.Delivers p d stores r →
        ∀ k t, (s.targetsAt act.pc i.c.toNat)[k]? = some t →
          after.regs.get? t.cls t.index =
            (lastStored stores k).or (act.regs.get? t.cls t.index)) ∧
      (∀ t ∉ s.targetsAt act.pc i.c.toNat,
        after.regs.get? t.cls t.index = act.regs.get? t.cls t.index) ∧
      (∀ cls k, Interpreter.sourceValue s after (.konst cls k) =
        Interpreter.sourceValue s act (.konst cls k)) ∧
      after.numParam = act.numParam - i.b.toNat ∧
      ∀ k < act.numParam - i.b.toNat, after.params[k]? = act.params[k]? := by
  obtain ⟨heffect, hperform, hcallee⟩ := hasks
  obtain ⟨rfl, hregs, ⟨cells, hslots⟩, rfl⟩ :=
    hmode.call_cases hverify hfit hi hop hcall heffect hperform
  obtain ⟨hseparate, hsize⟩ := separate_callSlots hregs hdistinct hslots
  obtain ⟨stores, hstores⟩ := Invocation.exists_delivers hrun hfinished
  have hclasses := (collected_of_delivers hstores).class?_eq
  have hmove : Moves p.size (invoke p d fuel) self effectAt (act, amb)
      (({ act with numParam := act.numParam - i.b.toNat } : Activation).resume
        (s.targetsAt act.pc i.c.toNat) r.slots r.memory, r.ambient) :=
    .call heffect hperform hcallee hrun hfinished
  have honly : ∀ next, Moves p.size (invoke p d fuel) self effectAt (act, amb) next ↔ next = _ :=
    fun next => ⟨fun hnext => moves_unique hnext hmove, fun hnext => hnext ▸ hmove⟩
  refine ⟨_, honly, ⟨stores, hstores⟩, ?_, ?_, ?_, ?_, ?_⟩
  · intro stores' hstores' k t hk
    have hcollected := (collected_of_delivers hstores').get?_eq hseparate k
    have hlt : k < (s.targetsAt act.pc i.c.toNat).length := (List.getElem?_eq_some_iff.1 hk).1
    calc _ = r.slots.get? k := get?_resume_target hregs hdistinct hslots hclasses hk r.memory
      _ = (lastStored stores' k).or _ := hcollected (by rw [← hsize] at hlt; exact hlt)
      _ = _ := by rw [get?_callSlots hregs hslots hk]
  · intro t ht
    exact get?_resume_other hregs hslots hclasses ht r.memory
  · intro cls k
    rfl
  · rfl
  · intro k _
    rfl

/-- A program of one native function, which writes the first of its results. -/
def writesFirst : Program where
  functions := #[.native (Action.native "one" [.set 0 (.int 42)] 1)]

/-- A script that calls the function for two results, with a parameter pending for another call. -/
def asksForTwo : Script where
  name := "two"
  code := #[.make .parami 7 0 0, .make .callK 0 0 2, .make .result 0 0 0, .make .result 0 0 1,
    .make .callK 0 1 0]
  konst := { pointers := #[functionAddress 0] }
  regs := { int := 3 }
  maxParam := 1

/-- An activation of the script that stands at the first call. -/
def atFirstCall : Activation where
  pc := 1
  regs := { ints := #[3, 4, 5], floats := #[], strings := #[], pointers := #[] }
  params := #[.value (.int 7)]
  numParam := 1
  slots := .fresh []
  memory := {}

/-- The first result is received; the register of the second, the one that is not named and the
parameter are as before. -/
theorem activation_isolated_asksForTwo :
    asksForTwo.verify = .ok () ∧ ∃ after amb,
      Moves 1 (invoke writesFirst .interpreting 1) 1 (interpretAt asksForTwo)
        (atFirstCall, { tier := () }) (after, amb) ∧
      after.regs.get? .int 0 = some (.int 42) ∧ after.regs.get? .int 1 = some (.int 4) ∧
      after.regs.get? .int 2 = some (.int 5) ∧ after.params[0]? = some (.value (.int 7)) := by
  have hverify : asksForTwo.verify = .ok () := by decide +kernel
  have hpending : asksForTwo.pendingAt 1 = 1 := by decide +kernel
  have hop : (Instr.make .callK 0 0 2).opcode? = some .callK := by decide +kernel
  have hfit : atFirstCall.Fits asksForTwo := by
    refine ⟨⟨by decide, fun _ => hpending.symm⟩, ?_, rfl, ?_⟩
    · intro cls
      cases cls <;> rfl
    · intro q hq
      rw [show q = .value (.int 7) by simpa [atFirstCall] using hq]
      trivial
  have heffect : interpretAt asksForTwo atFirstCall = some (.ok
      (.call (functionAddress 0) 1 0 [⟨.int, 0⟩, ⟨.int, 1⟩] .registers)) := by
    show some (Interpreter.step asksForTwo atFirstCall (.make .callK 0 0 2)) = _
    rw [Interpreter.step, hop]
    rfl
  have hasks : Asks 1 1 (interpretAt asksForTwo) (atFirstCall, ({ tier := () } : Ambient Unit)) _ :=
    .call heffect rfl rfl
  obtain ⟨after, honly, _, hresults, hother, _, _, hparams⟩ :=
    activation_isolated (p := writesFirst) (d := .interpreting) hverify .interpreted hfit rfl hop
      (.inr rfl) (by decide +kernel) hasks rfl rfl 1
  have hstores := hresults [(0, .int 42)] (.native rfl rfl (.tail (.refl _) (.write rfl)) .finish)
  refine ⟨hverify, after, _, (honly _).2 rfl, ?_, ?_, ?_, ?_⟩
  · exact hstores 0 ⟨.int, 0⟩ (by decide +kernel)
  · exact hstores 1 ⟨.int, 1⟩ (by decide +kernel)
  · exact hother ⟨.int, 2⟩ (by decide +kernel)
  · exact hparams 0 (by decide)

end TierVm
