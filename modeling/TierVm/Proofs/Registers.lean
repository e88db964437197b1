import Mathlib.Tactic.SplitIfs
import TierVm.Exec.Activation

/-!
# Registers, frames and return slots

What the execution of an instruction relies on when it reads and writes the data of an activation.

* Registers.  `Registers.sizeOf` is the size of a register file.  A register below it can be read
  (`get?_eq_some`) and replaced (`put?_eq_some`), no write changes a size (`sizeOf_put?`), and the
  two laws of reading after writing are `get?_put?_self` and `get?_put?_other`.
* Frames.  `FrameStack.push_ok` says what a push that succeeds has done: the new frame has the
  register files and the parameter area that its script asks for.
* Return slots.  Every slot leads to a value (`ReturnSlots.get?_eq_some`), and a call finds slots
  for all its targets when these are registers (`Activation.callSlots_eq_some`).
-/

namespace TierVm

/-- A list of computations that all come to a result. -/
theorem mapM_eq_pure {m : Type → Type} [Monad m] [LawfulMonad m] {α β : Type} {f : α → m β}
    {g : α → β} {xs : List α} (h : ∀ x ∈ xs, f x = pure (g x)) :
    xs.mapM f = pure (xs.map g) := by
  induction xs with
  | nil => rfl
  | cons x rest ih =>
    rw [List.mapM_cons, h x (List.mem_cons_self ..),
      ih fun y hy => h y (List.mem_cons_of_mem _ hy)]
    simp

/-! ## Registers -/

namespace Registers

variable {r r' : Registers} {cls : RegClass} {i j : Nat} {v : Value}

/-- Number of registers of a class. -/
def sizeOf (r : Registers) : RegClass → Nat
  | .int => r.ints.size
  | .float => r.floats.size
  | .string => r.strings.size
  | .pointer => r.pointers.size

@[simp] theorem sizeOf_fresh (n : RegisterCounts) (cls : RegClass) :
    (fresh n).sizeOf cls = n.of cls := by
  cases cls <;> simp [sizeOf, fresh]

/-- A register that exists holds a value of its class. -/
theorem get?_eq_some (h : i < r.sizeOf cls) : ∃ v, r.get? cls i = some v ∧ v.regClass = cls := by
  cases cls with
  | int => exact ⟨.int r.ints[i], by simp [get?, Array.getElem?_eq_getElem h], rfl⟩
  | float => exact ⟨.float r.floats[i], by simp [get?, Array.getElem?_eq_getElem h], rfl⟩
  | string => exact ⟨.string r.strings[i], by simp [get?, Array.getElem?_eq_getElem h], rfl⟩
  | pointer => exact ⟨.pointer r.pointers[i], by simp [get?, Array.getElem?_eq_getElem h], rfl⟩

/-- A value is written where a register of its class exists. -/
theorem put?_eq_some (h : i < r.sizeOf v.regClass) : ∃ r', r.put? i v = some r' := by
  cases v with
  | int x => exact ⟨_, if_pos h⟩
  | float x => exact ⟨_, if_pos h⟩
  | string x => exact ⟨_, if_pos h⟩
  | pointer x => exact ⟨_, if_pos h⟩

/-- Writing changes no size. -/
theorem sizeOf_put? (h : r.put? i v = some r') (cls : RegClass) : r'.sizeOf cls = r.sizeOf cls := by
  cases v <;>
  · simp only [put?] at h
    split_ifs at h
    cases h
    cases cls <;> simp [sizeOf]

/-- A register holds what was last written to it. -/
theorem get?_put?_self (h : r.put? i v = some r') : r'.get? v.regClass i = some v := by
  cases v <;>
  · simp only [put?] at h
    split_ifs at h with hi
    cases h
    simp [get?, Value.regClass, hi]

/-- Writing to a register leaves all others. -/
theorem get?_put?_other (h : r.put? i v = some r') (hne : cls ≠ v.regClass ∨ j ≠ i) :
    r'.get? cls j = r.get? cls j := by
  cases v <;>
  · simp only [put?] at h
    split_ifs at h
    cases h
    cases cls with
    | _ =>
      first
      | rfl
      | have hji : j ≠ i := hne.resolve_left fun hcls => hcls rfl
        simp [get?, Array.getElem?_setIfInBounds_ne (Ne.symm hji)]

end Registers

/-! ## Frames -/

/-- Distributing arguments changes no size. -/
theorem sizeOf_of_distribute {args : List Value} {i : Nat} {cursors : Cursors}
    {regs regs' : Registers} (h : distribute args i cursors regs = .ok regs') (cls : RegClass) :
    regs'.sizeOf cls = regs.sizeOf cls := by
  induction args generalizing i cursors regs with
  | nil =>
    rw [distribute] at h
    cases h
    rfl
  | cons v rest ih =>
    rw [distribute] at h
    cases hput : regs.put? (cursors.of v.regClass) v with
    | none => simp [hput] at h
    | some next =>
      rw [hput] at h
      rw [ih h, Registers.sizeOf_put? hput]

/-- A filled frame has the register files and the parameter area of its script. -/
theorem Frame.fill_blank_ok {s : Script} {args : List Value} {frame : Frame}
    (h : (Frame.blank s).fill args = .ok frame) :
    (∀ cls, frame.regs.sizeOf cls = s.regs.of cls) ∧ frame.maxParam = s.maxParam := by
  rw [Frame.fill] at h
  cases hregs : distribute args 0 {} (Frame.blank s).regs with
  | error e =>
    rw [hregs] at h
    cases h
  | ok regs =>
    rw [hregs] at h
    cases h
    refine ⟨?_, rfl⟩
    intro cls
    show regs.sizeOf cls = s.regs.of cls
    rw [sizeOf_of_distribute hregs]
    exact Registers.sizeOf_fresh s.regs cls

/-- A push that succeeds: there was room for one more frame, and the frame is linked. -/
theorem FrameStack.push_ok {st st' : FrameStack} {s : Script} {args : List Value} {frame : Frame}
    (h : st.push s args = (.ok frame, st')) :
    st.depth < maxFrameDepth ∧ (Frame.blank s).fill args = .ok frame ∧ st' = st.link frame := by
  rw [push] at h
  split_ifs at h with hdepth
  · cases h
  · cases hfill : (Frame.blank s).fill args with
    | error e =>
      rw [hfill] at h
      cases h
    | ok frame' =>
      rw [hfill] at h
      cases h
      exact ⟨by omega, rfl, rfl⟩

/-- A push that fails leaves the stack as it was. -/
theorem FrameStack.push_error {st st' : FrameStack} {s : Script} {args : List Value} {e : VmError}
    (h : st.push s args = (.error e, st')) : st' = st := by
  rw [push] at h
  split_ifs at h with hdepth
  · cases h
    rfl
  · cases hfill : (Frame.blank s).fill args with
    | ok frame =>
      rw [hfill] at h
      cases h
    | error e' =>
      rw [hfill] at h
      cases h
      rfl

/-! ## Return slots -/

namespace ReturnSlots

variable {r : ReturnSlots} {i : Nat}

/-- Every slot holds a value. -/
theorem get?_eq_some (h : i < r.size) : ∃ v, r.get? i = some v := by
  have hcell : r.cellOf[i]? = some r.cellOf[i] := Array.getElem?_eq_getElem h
  have hlt : r.cellOf[i] < r.cells.size := r.cellOf_lt _ (Array.getElem_mem h)
  exact ⟨r.cells[r.cellOf[i]], by simp [get?, hcell, Array.getElem?_eq_getElem hlt]⟩

/-- Every slot has a class. -/
theorem class?_eq_some (h : i < r.size) : ∃ cls, r.class? i = some cls := by
  obtain ⟨v, hv⟩ := get?_eq_some h
  exact ⟨v.regClass, by simp [class?, hv]⟩

/-- Only a slot has a class. -/
theorem lt_size_of_class? {cls : RegClass} (h : r.class? i = some cls) : i < r.size := by
  rcases Nat.lt_or_ge i r.size with hlt | hge
  · exact hlt
  · have hnone : r.cellOf[i]? = none := Array.getElem?_eq_none_iff.2 hge
    simp [class?, get?, hnone] at h

end ReturnSlots

namespace Activation

variable {act : Activation} {targets : List Target} {cells : ResultCells}

@[simp] theorem length_slotCells : (slotCells targets cells).length = targets.length := by
  simp [slotCells]

/-- The cells of a call's slots exist: there is one for each target. -/
theorem slotCells_lt {k : Nat} (h : k ∈ slotCells targets cells) : k < targets.length := by
  simp only [slotCells, List.mem_map, Prod.exists] at h
  obtain ⟨t, i, hti, rfl⟩ := h
  have hi := List.mem_zipIdx hti
  split_ifs
  · have ht : t ∈ targets := by
      rw [hi.2.2]
      exact List.getElem_mem _
    exact List.findIdx_lt_length_of_exists ⟨t, ht, by simp⟩
  · omega

/-- The values of registers; a register that does not exist counts as a fresh one. -/
def heldIn (regs : Registers) (targets : List Target) : List Value :=
  targets.map fun t => (regs.get? t.cls t.index).getD (.zero t.cls)

/-- A call whose targets are registers finds a slot for each of them, and the register's value in
its cell. -/
theorem callSlots_eq_some (cells : ResultCells)
    (h : ∀ t ∈ targets, t.index < act.regs.sizeOf t.cls) :
    ∃ slots, act.callSlots targets cells = some slots ∧
      slots.cells = (heldIn act.regs targets).toArray ∧
      slots.cellOf = (slotCells targets cells).toArray := by
  have hheld : (targets.mapM fun t => act.regs.get? t.cls t.index) =
      some (heldIn act.regs targets) := by
    apply mapM_eq_pure
    intro t ht
    obtain ⟨v, hv, _⟩ := Registers.get?_eq_some (h t ht)
    rw [hv]
    rfl
  have hcells : ∀ k ∈ slotCells targets cells, k < (heldIn act.regs targets).length := by
    intro k hk
    rw [heldIn, List.length_map]
    exact slotCells_lt hk
  have hlink : act.callSlots targets cells =
      ReturnSlots.link? (heldIn act.regs targets) (slotCells targets cells) := by
    rw [callSlots, hheld]
    rfl
  rw [hlink, ReturnSlots.link?, dif_pos hcells]
  exact ⟨_, rfl, rfl, rfl⟩

/-- The activation behind a call that has returned: its results are in their targets. -/
def resume (act : Activation) (targets : List Target) (results : ReturnSlots) (memory : Memory) :
    Activation where
  pc := act.pc + 1 + targets.length
  regs := receive results targets.zipIdx act.regs
  params := act.params
  numParam := act.numParam
  slots := act.slots
  memory := memory

/-- Receiving results changes no size. -/
theorem sizeOf_receive (slots : ReturnSlots) (results : List (Target × Nat)) (regs : Registers)
    (cls : RegClass) : (receive slots results regs).sizeOf cls = regs.sizeOf cls := by
  induction results generalizing regs with
  | nil => rfl
  | cons result rest ih =>
    obtain ⟨t, i⟩ := result
    rw [receive]
    cases hput : (slots.get? i).bind (regs.put? t.index) with
    | none => exact ih regs
    | some next =>
      obtain ⟨v, _, hv⟩ := Option.bind_eq_some_iff.1 hput
      exact (ih next).trans (Registers.sizeOf_put? hv cls)

end Activation

end TierVm
