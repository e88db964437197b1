import Mathlib.Algebra.GroupWithZero.Nat
import TierVm.Proofs.FrameHistory

/-!
# Regions of a frame

The header of a frame, its parameter area and its four register files lie one behind the other in
one block.  `FrameLayout.compute` only adds up sizes; this module says that the sum is right for
every choice of them.

A `FrameSlot` is one parameter or one register, and `FrameLayout.slotAt` finds the slot of a byte.
`slotAt_of_holds` says that a byte of a slot leads back to it, so that slots do not overlap.
`slotAt_holds` says that nothing lies between them.  Both are arithmetic about the offsets, which
are written out first.  The counts have sixteen bits, so that the largest frame is far below the
range of the signed offsets in compiled code.

A frame carries the counts from which it was laid out in its header.  `layouts_after` says that,
after any history of a stack, the headers give back the layouts with which the frames were pushed.
-/

namespace TierVm

/-! ## Rounding up -/

section AlignUp

variable {align : Nat} (h : 0 < align) (n : Nat)

theorem dvd_alignUp (n align : Nat) : align ∣ alignUp n align := Nat.dvd_mul_left ..

include h

theorem le_alignUp : n ≤ alignUp n align := by
  have hdiv := Nat.div_add_mod (n + align - 1) align
  have hmod := Nat.mod_lt (n + align - 1) h
  rw [Nat.mul_comm] at hdiv
  unfold alignUp
  omega

theorem alignUp_lt : alignUp n align < n + align := by
  have hle := Nat.div_mul_le_self (n + align - 1) align
  unfold alignUp
  omega

end AlignUp

/-! ## Slots -/

/-- A parameter or a register of a frame. -/
inductive FrameSlot where
  | param (index : Nat)
  | register (cls : RegClass) (index : Nat)
  deriving DecidableEq

namespace FrameSlot

/-- The slots that a frame has. -/
def Within (regs : RegisterCounts) (maxParam : Nat) : FrameSlot → Prop
  | .param index => index < maxParam
  | .register cls index => index < regs.of cls

/-- Where a slot starts. -/
def offset (l : FrameLayout) : FrameSlot → Nat
  | .param index => l.params + index * paramSize
  | .register cls index => l.register cls index

/-- Bytes of a slot. -/
def width : FrameSlot → Nat
  | .param _ => paramSize
  | .register cls _ => cls.slotSize

/-- What the start of a slot is a multiple of. -/
def alignment : FrameSlot → Nat
  | .param _ => 16
  | .register .int _ => 4
  | .register _ _ => 8

/-- A byte of a slot. -/
def Holds (l : FrameLayout) (slot : FrameSlot) (byte : Nat) : Prop :=
  slot.offset l ≤ byte ∧ byte < slot.offset l + slot.width

end FrameSlot

namespace FrameLayout

/-- Where the last region ends. -/
def used (l : FrameLayout) (regs : RegisterCounts) : Nat :=
  l.intRegs + regs.of .int * RegClass.int.slotSize

/-- The slot to which a byte behind the header belongs. -/
def slotAt (l : FrameLayout) (byte : Nat) : FrameSlot :=
  if byte < l.floatRegs then .param ((byte - l.params) / paramSize)
  else if byte < l.stringRegs then .register .float ((byte - l.floatRegs) / RegClass.float.slotSize)
  else if byte < l.pointerRegs then
    .register .string ((byte - l.stringRegs) / RegClass.string.slotSize)
  else if byte < l.intRegs then
    .register .pointer ((byte - l.pointerRegs) / RegClass.pointer.slotSize)
  else .register .int ((byte - l.intRegs) / RegClass.int.slotSize)

section Compute

variable (regs : RegisterCounts) (maxParam : Nat)

/-! ## Offsets, written out -/

/-- The slot of a byte, written out. -/
theorem slotAt_compute (byte : Nat) :
    (compute regs maxParam).slotAt byte =
      if byte < 32 + maxParam * 16 then .param ((byte - 32) / 16)
      else if byte < 32 + maxParam * 16 + regs.of .float * 8 then
        .register .float ((byte - (32 + maxParam * 16)) / 8)
      else if byte < 32 + maxParam * 16 + regs.of .float * 8 + regs.of .string * 24 then
        .register .string ((byte - (32 + maxParam * 16 + regs.of .float * 8)) / 24)
      else if byte < 32 + maxParam * 16 + regs.of .float * 8 + regs.of .string * 24 +
          regs.of .pointer * 8 then
        .register .pointer
          ((byte - (32 + maxParam * 16 + regs.of .float * 8 + regs.of .string * 24)) / 8)
      else .register .int
        ((byte - (32 + maxParam * 16 + regs.of .float * 8 + regs.of .string * 24 +
          regs.of .pointer * 8)) / 4) := rfl

theorem used_compute :
    (compute regs maxParam).used regs =
      32 + maxParam * 16 + regs.of .float * 8 + regs.of .string * 24 + regs.of .pointer * 8 +
        regs.of .int * 4 := rfl

end Compute

end FrameLayout

namespace FrameSlot

open FrameLayout

variable {regs : RegisterCounts} {maxParam byte : Nat} {slot : FrameSlot}

/-- Where a slot starts, written out. -/
theorem offset_compute (regs : RegisterCounts) (maxParam : Nat) (slot : FrameSlot) :
    slot.offset (compute regs maxParam) =
      match slot with
      | .param index => 32 + index * 16
      | .register .float index => 32 + maxParam * 16 + index * 8
      | .register .string index => 32 + maxParam * 16 + regs.of .float * 8 + index * 24
      | .register .pointer index =>
        32 + maxParam * 16 + regs.of .float * 8 + regs.of .string * 24 + index * 8
      | .register .int index =>
        32 + maxParam * 16 + regs.of .float * 8 + regs.of .string * 24 + regs.of .pointer * 8 +
          index * 4 := by
  rcases slot with index | ⟨⟨⟩, index⟩ <;> rfl

theorem width_eq (slot : FrameSlot) :
    slot.width =
      match slot with
      | .param _ => 16
      | .register .string _ => 24
      | .register .int _ => 4
      | .register _ _ => 8 := by
  rcases slot with index | ⟨⟨⟩, index⟩ <;> rfl

/-- A slot lies behind the header and before the end of the integer registers. -/
theorem within_used (h : slot.Within regs maxParam) :
    headerSize ≤ slot.offset (compute regs maxParam) ∧
      slot.offset (compute regs maxParam) + slot.width ≤
        (compute regs maxParam).used regs := by
  have hheader : headerSize = 32 := rfl
  rcases slot with index | ⟨⟨⟩, index⟩ <;>
  · simp only [Within] at h
    simp only [offset_compute, width_eq, used_compute]
    omega

/-- Slots start at multiples of their alignment. -/
theorem dvd_offset (regs : RegisterCounts) (maxParam : Nat) (slot : FrameSlot) :
    slot.alignment ∣ slot.offset (compute regs maxParam) := by
  rcases slot with index | ⟨⟨⟩, index⟩ <;>
  · simp only [alignment, offset_compute]
    omega

/-- A byte of a slot leads back to the slot. -/
theorem slotAt_of_holds (h : slot.Within regs maxParam)
    (hbyte : slot.Holds (compute regs maxParam) byte) :
    (compute regs maxParam).slotAt byte = slot := by
  rcases slot with index | ⟨⟨⟩, index⟩ <;>
  · simp only [Within] at h
    simp only [Holds, offset_compute, width_eq] at hbyte
    simp only [slotAt_compute]
    grind

/-- Behind the header each byte belongs to a slot, up to the end of the integer registers. -/
theorem slotAt_holds (hlow : headerSize ≤ byte) (hhigh : byte < (compute regs maxParam).used regs) :
    ((compute regs maxParam).slotAt byte).Within regs maxParam ∧
      ((compute regs maxParam).slotAt byte).Holds (compute regs maxParam) byte := by
  have hheader : headerSize = 32 := rfl
  generalize hslot : (compute regs maxParam).slotAt byte = slot
  rw [used_compute] at hhigh
  rw [slotAt_compute] at hslot
  split_ifs at hslot <;>
  · subst hslot
    simp only [Within, Holds, offset_compute, width_eq]
    omega

theorem width_pos (slot : FrameSlot) : 0 < slot.width := by
  rcases slot with index | ⟨⟨⟩, index⟩ <;> exact Nat.succ_pos _

/-- Slots that share a byte are the same. -/
theorem eq_of_holds {slot' : FrameSlot} (byte : Nat) (h : slot.Within regs maxParam)
    (h' : slot'.Within regs maxParam) (hbyte : slot.Holds (compute regs maxParam) byte)
    (hbyte' : slot'.Holds (compute regs maxParam) byte) : slot = slot' :=
  (slotAt_of_holds h hbyte).symm.trans (slotAt_of_holds h' hbyte')

/-- Different slots lie one behind the other.  If neither ended before the other starts, the later
of the two starts would be a byte of both. -/
theorem apart_of_ne {slot' : FrameSlot} (h : slot.Within regs maxParam)
    (h' : slot'.Within regs maxParam) (hne : slot ≠ slot') :
    slot.offset (compute regs maxParam) + slot.width ≤ slot'.offset (compute regs maxParam) ∨
      slot'.offset (compute regs maxParam) + slot'.width ≤ slot.offset (compute regs maxParam) := by
  by_contra hmeet
  have hwidth := slot.width_pos
  have hwidth' := slot'.width_pos
  apply hne
  apply eq_of_holds
    (max (slot.offset (compute regs maxParam)) (slot'.offset (compute regs maxParam))) h h'
  · unfold Holds
    omega
  · unfold Holds
    omega

/-- Registers are told apart by their offsets. -/
theorem register_inj {cls cls' : RegClass} {i i' : Nat}
    (h : (register cls i).Within regs maxParam) (h' : (register cls' i').Within regs maxParam)
    (heq : (compute regs maxParam).register cls i = (compute regs maxParam).register cls' i') :
    cls = cls' ∧ i = i' := by
  have hslots : register cls i = register cls' i' := by
    apply eq_of_holds ((compute regs maxParam).register cls i) h h'
    · exact ⟨Nat.le_refl _, Nat.lt_add_of_pos_right (width_pos _)⟩
    · rw [heq]
      exact ⟨Nat.le_refl _, Nat.lt_add_of_pos_right (width_pos _)⟩
  cases hslots
  exact ⟨rfl, rfl⟩

end FrameSlot

/-! ## Bounds -/

theorem RegisterCounts.of_lt (regs : RegisterCounts) (cls : RegClass) : regs.of cls < 2 ^ 16 := by
  cases cls <;> exact UInt16.toNat_lt _

namespace FrameLayout

/-- The largest frame is far below the range of signed offsets. -/
theorem used_lt (regs : RegisterCounts) (maxParam : UInt16) :
    (compute regs maxParam.toNat).used regs < 2 ^ 22 := by
  have hparam := maxParam.toNat_lt
  have hfloat := regs.of_lt .float
  have hstring := regs.of_lt .string
  have hpointer := regs.of_lt .pointer
  have hint := regs.of_lt .int
  rw [used_compute]
  omega

theorem params_le_used (regs : RegisterCounts) (maxParam : Nat) :
    (compute regs maxParam).params ≤ (compute regs maxParam).used regs := by
  have hparams := FrameSlot.offset_compute regs maxParam (.param 0)
  simp only [FrameSlot.offset, Nat.zero_mul, Nat.add_zero] at hparams
  rw [used_compute, hparams]
  omega

theorem start_le_used (regs : RegisterCounts) (maxParam : Nat) (cls : RegClass) :
    (compute regs maxParam).start cls ≤ (compute regs maxParam).used regs := by
  have hstart : (compute regs maxParam).start cls =
      (FrameSlot.register cls 0).offset (compute regs maxParam) := by
    rw [FrameSlot.offset, FrameLayout.register, Nat.zero_mul, Nat.add_zero]
  rw [hstart, FrameSlot.offset_compute, used_compute]
  cases cls <;>
  · simp only
    omega

theorem used_le_size (regs : RegisterCounts) (maxParam : Nat) :
    (compute regs maxParam).used regs ≤ (compute regs maxParam).size :=
  le_alignUp (by decide) _

theorem size_lt_used (regs : RegisterCounts) (maxParam : Nat) :
    (compute regs maxParam).size < (compute regs maxParam).used regs + frameAlign :=
  alignUp_lt (by decide) _

/-- An offset up to the end of the last region has room in a signed word. -/
theorem exact_of_le_used {regs : RegisterCounts} {maxParam : UInt16} {offset : Nat}
    (h : offset ≤ (compute regs maxParam.toNat).used regs) :
    offset < 2 ^ 31 ∧ (Int32.ofNat offset).toInt = offset := by
  have hused := used_lt regs maxParam
  have hlt : offset < 2 ^ 31 := by omega
  exact ⟨hlt, Int32.toInt_ofNat_of_lt hlt⟩

/-! ## The contract -/

/-- A layout is right for the given counts. -/
structure Partitions (l : FrameLayout) (regs : RegisterCounts) (maxParam : Nat) : Prop where
  /-- Slots lie behind the header and inside the frame. -/
  inside : ∀ slot : FrameSlot, slot.Within regs maxParam →
    headerSize ≤ slot.offset l ∧ slot.offset l + slot.width ≤ l.size
  /-- Different slots have no byte in common. -/
  disjoint : ∀ slot slot' : FrameSlot, slot.Within regs maxParam → slot'.Within regs maxParam →
    slot ≠ slot' → slot.offset l + slot.width ≤ slot'.offset l ∨
      slot'.offset l + slot'.width ≤ slot.offset l
  /-- There is no gap between the header, the slots and the padding at the end. -/
  covered : ∀ byte, headerSize ≤ byte → byte < l.used regs →
    ∃ slot : FrameSlot, slot.Within regs maxParam ∧ slot.Holds l byte
  aligned : ∀ slot : FrameSlot, slot.alignment ∣ slot.offset l
  /-- Registers are told apart by their offsets. -/
  register_inj : ∀ cls cls' i i', i < regs.of cls → i' < regs.of cls' →
    l.register cls i = l.register cls' i' → cls = cls' ∧ i = i'
  /-- The padding makes the size a multiple of the alignment, and is no more than that takes. -/
  size_aligned : 16 ∣ l.size
  size_tight : l.used regs ≤ l.size ∧ l.size < l.used regs + 16
  /-- Offsets fit the signed words of compiled code. -/
  offset_exact : ∀ slot : FrameSlot, slot.Within regs maxParam →
    slot.offset l < 2 ^ 31 ∧ (Int32.ofNat (slot.offset l)).toInt = slot.offset l
  params_exact : l.params < 2 ^ 31 ∧ (Int32.ofNat l.params).toInt = l.params
  start_exact : ∀ cls, l.start cls < 2 ^ 31 ∧ (Int32.ofNat (l.start cls)).toInt = l.start cls
  /-- The size fits the word in the header. -/
  size_exact : l.size < 2 ^ 31 ∧ (UInt32.ofNat l.size).toNat = l.size

theorem size_exact (regs : RegisterCounts) (maxParam : UInt16) :
    (compute regs maxParam.toNat).size < 2 ^ 31 ∧
      (UInt32.ofNat (compute regs maxParam.toNat).size).toNat =
        (compute regs maxParam.toNat).size := by
  have hused := used_lt regs maxParam
  have hsize := size_lt_used regs maxParam.toNat
  have halign : frameAlign = 16 := rfl
  have hlt : (compute regs maxParam.toNat).size < 2 ^ 31 := by omega
  exact ⟨hlt, UInt32.toNat_ofNat_of_lt (Nat.lt_trans hlt (by decide))⟩

theorem partitions_compute (regs : RegisterCounts) (maxParam : UInt16) :
    (compute regs maxParam.toNat).Partitions regs maxParam.toNat where
  inside slot hslot := by
    obtain ⟨hlow, hhigh⟩ := FrameSlot.within_used hslot
    exact ⟨hlow, Nat.le_trans hhigh (used_le_size ..)⟩
  disjoint _ _ := FrameSlot.apart_of_ne
  covered byte hlow hhigh := ⟨_, FrameSlot.slotAt_holds hlow hhigh⟩
  aligned := FrameSlot.dvd_offset regs maxParam.toNat
  register_inj _ _ _ _ := FrameSlot.register_inj
  size_aligned := dvd_alignUp ..
  size_tight := ⟨used_le_size .., size_lt_used ..⟩
  offset_exact slot hslot := by
    obtain ⟨-, hhigh⟩ := FrameSlot.within_used hslot
    exact exact_of_le_used (Nat.le_trans (Nat.le_add_right ..) hhigh)
  params_exact := exact_of_le_used (params_le_used ..)
  start_exact cls := exact_of_le_used (start_le_used ..)
  size_exact := size_exact regs maxParam

end FrameLayout

/-! ## Headers -/

/-- The layout that the header of a frame describes. -/
def Frame.layout (f : Frame) : FrameLayout := .compute f.counts f.maxParam.toNat

/-- The header of a frame gives back the layout of its script, and its size. -/
theorem Frame.Holds.layout {f : Frame} {s : Script} {args : List Value} (h : f.Holds s args) :
    f.layout = .ofScript s := by
  rw [Frame.layout, h.counts, h.maxParam]
  rfl

theorem Frame.Holds.size_layout {f : Frame} {s : Script} {args : List Value} (h : f.Holds s args) :
    f.size.toNat = f.layout.size := by
  rw [h.layout, h.size]
  exact (FrameLayout.size_exact s.regs s.maxParam).2

/-- After any history the frames have the layouts with which their calls were entered. -/
theorem layouts_after (ops : List FrameOp) :
    (FrameOp.stackAfter ops).frames.map (fun f => (f.layout, f.size.toNat)) =
      (FrameOp.callsAfter ops).map fun c =>
        (FrameLayout.ofScript c.script, (FrameLayout.ofScript c.script).size) := by
  have hframes := (FrameStack.shows_after ops).frames
  generalize (FrameOp.stackAfter ops).frames = frames at hframes ⊢
  generalize FrameOp.callsAfter ops = calls at hframes ⊢
  induction hframes with
  | nil => rfl
  | cons hfirst _ ih =>
    rw [List.map_cons, List.map_cons, ih, hfirst.size_layout, hfirst.layout]

/-- The layout of a frame is a partition into aligned slots, for all register files and parameter
areas there are.  The headers on a frame stack give back the layouts with which the frames were
pushed, whatever was pushed and popped before. -/
theorem frame_layout_partition (regs : RegisterCounts) (maxParam : UInt16) (ops : List FrameOp) :
    (FrameLayout.compute regs maxParam.toNat).Partitions regs maxParam.toNat ∧
      (FrameOp.stackAfter ops).frames.map (fun f => (f.layout, f.size.toNat)) =
        (FrameOp.callsAfter ops).map fun c =>
          (FrameLayout.ofScript c.script, (FrameLayout.ofScript c.script).size) :=
  ⟨FrameLayout.partitions_compute regs maxParam, layouts_after ops⟩

end TierVm
