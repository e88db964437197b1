import Mathlib.Tactic.Ring
import TierVm.Machine.Memory

/-!
# Blocks in memory

Memory is made of blocks that lie apart.  Which block an address belongs to is found by division;
the statements about memory are about the blocks themselves, and about single bytes.

* `Region.Has` and `Memory.Has` say that a block is live and where it starts, `Memory.ByteAt` which
  byte stands at an address, and `Memory.InBounds` that an access lies in one block.
* `Memory.WellPlaced` is the invariant behind the arithmetic: blocks are smaller than the distance
  between them, and the two regions do not meet.  `Memory.WellPlaced.apart` draws the conclusion.
* `Memory.read?_eq_some_iff` and `Memory.write?_eq_some_iff` say what is read and written.
  `Memory.has_patch` says what a write does to the blocks, and `Memory.byteAt_patch` what it does to
  the bytes.
* `Memory.has_place` and `Memory.has_reset` say which blocks there are after an allocation and after
  all objects are released.
-/

namespace TierVm

/-! ## Bytes of a block -/

namespace Block

variable (b : Block)

@[simp] theorem size_setSlice (offset : Nat) (bytes : List UInt8) :
    (b.setSlice offset bytes).size = b.size := by
  induction bytes generalizing b offset with
  | nil => rfl
  | cons v rest ih => exact ih (b.setByte offset v) (offset + 1)

theorem byte_setByte (offset k : Nat) (v : UInt8) :
    (b.setByte offset v).byte k = if offset = k then v else b.byte k := by
  simp only [byte, setByte, Std.TreeMap.getD_insert, Nat.compare_eq_eq]

/-- Bytes in front of those that are replaced, and behind them, stay. -/
theorem byte_setSlice_outside {offset k : Nat} {bytes : List UInt8}
    (h : k < offset ∨ offset + bytes.length ≤ k) :
    (b.setSlice offset bytes).byte k = b.byte k := by
  induction bytes generalizing b offset with
  | nil => rfl
  | cons v rest ih =>
    rw [List.length_cons] at h
    rw [setSlice, ih (b.setByte offset v) (by omega), byte_setByte, if_neg (by omega)]

/-- The bytes that are replaced are the given ones. -/
theorem byte_setSlice_inside {offset k : Nat} {bytes : List UInt8} {v : UInt8}
    (h : bytes[k]? = some v) : (b.setSlice offset bytes).byte (offset + k) = v := by
  induction bytes generalizing b offset k with
  | nil => cases h
  | cons u rest ih =>
    cases k with
    | zero =>
      cases h
      rw [setSlice, byte_setSlice_outside _ (by omega), byte_setByte, if_pos (Nat.add_zero _).symm]
    | succ k =>
      have hnext : ((b.setByte offset u).setSlice (offset + 1) rest).byte (offset + 1 + k) = v :=
        ih _ h
      rw [show offset + 1 + k = offset + (k + 1) by omega] at hnext
      exact hnext

/-- The block with bytes replaced from address `p` on, if it starts at `start` and has them. -/
def patch (start p : Nat) (bytes : List UInt8) : Block :=
  if start ≤ p ∧ p + bytes.length ≤ start + b.size then b.setSlice (p - start) bytes else b

@[simp] theorem size_patch (start p : Nat) (bytes : List UInt8) :
    (b.patch start p bytes).size = b.size := by
  rw [patch]
  split
  · exact size_setSlice b _ _
  · rfl

end Block

/-! ## Blocks of a region -/

namespace Region

variable {r : Region} {start start' p count i offset : Nat} {b b' : Block}

/-- A block of the region starts at an address. -/
def Has (r : Region) (start : Nat) (b : Block) : Prop :=
  ∃ i, r.blocks[i]? = some b ∧ start = r.base i

/-- Blocks are smaller than the distance between them. -/
def Spaced (r : Region) : Prop := ∀ b ∈ r.blocks, b.size < r.stride

/-- Where the next block would start. -/
def next (r : Region) : Nat := r.base r.blocks.size

theorem base_mono {i j : Nat} (h : i ≤ j) : r.base i ≤ r.base j :=
  Nat.add_le_add_left (Nat.mul_le_mul_right _ h) _

theorem base_succ (r : Region) (i : Nat) : r.base (i + 1) = r.base i + r.stride := by
  rw [base, base]
  ring

/-- A block ends before the place of every later one. -/
theorem Spaced.lt_base (hr : r.Spaced) (hb : r.blocks[i]? = some b) {j : Nat} (hij : i < j) :
    r.base i + b.size < r.base j := by
  have hsize := hr b (Array.mem_of_getElem? hb)
  have hstep := base_succ r i
  have hmono := base_mono (r := r) (Nat.succ_le_of_lt hij)
  rw [Nat.succ_eq_add_one] at hmono
  omega

theorem Has.origin_le (h : r.Has start b) : r.origin ≤ start := by
  obtain ⟨i, _, rfl⟩ := h
  exact Nat.le_add_right _ _

/-- Every block ends before the next place. -/
theorem Has.lt_next (h : r.Has start b) (hr : r.Spaced) : start + b.size < r.next := by
  obtain ⟨i, hb, rfl⟩ := h
  exact hr.lt_base hb (Array.getElem?_eq_some_iff.1 hb).1

/-- Two blocks are the same, or one ends before the other starts. -/
theorem Has.apart (hr : r.Spaced) (h : r.Has start b) (h' : r.Has start' b') :
    (start = start' ∧ b = b') ∨ start + b.size < start' ∨ start' + b'.size < start := by
  obtain ⟨i, hb, rfl⟩ := h
  obtain ⟨j, hb', rfl⟩ := h'
  rcases Nat.lt_trichotomy i j with hij | rfl | hij
  · exact .inr (.inl (hr.lt_base hb hij))
  · rw [hb] at hb'
    exact .inl ⟨rfl, Option.some.inj hb'⟩
  · exact .inr (.inr (hr.lt_base hb' hij))

/-- Division finds the block that an access lies in. -/
theorem find?_eq_some_iff (hr : r.Spaced) :
    r.find? p count = some (i, offset) ↔
      ∃ b, r.blocks[i]? = some b ∧ p = r.base i + offset ∧ offset + count ≤ b.size := by
  constructor
  · intro h
    simp only [find?] at h
    split at h
    · cases h
    · rename_i hp
      split at h
      · rename_i b hb
        split at h
        · rename_i hfits
          cases h
          refine ⟨b, hb, ?_, hfits⟩
          have hdiv := Nat.div_add_mod' (p - r.origin) r.stride
          rw [base]
          omega
        · cases h
      · cases h
  · rintro ⟨b, hb, rfl, hfits⟩
    have hsize := hr b (Array.mem_of_getElem? hb)
    have hoffset : r.base i + offset - r.origin = offset + r.stride * i := by
      rw [base, Nat.mul_comm i]
      omega
    have hdiv : (r.base i + offset - r.origin) / r.stride = i := by
      rw [hoffset, Nat.add_mul_div_left _ _ (by omega), Nat.div_eq_of_lt (by omega), Nat.zero_add]
    have hmod : (r.base i + offset - r.origin) % r.stride = offset := by
      rw [hoffset, Nat.add_mul_mod_self_left, Nat.mod_eq_of_lt (by omega)]
    have hge : ¬ r.base i + offset < r.origin := by
      rw [base]
      omega
    simp only [find?, if_neg hge, hdiv, hmod, hb, if_pos hfits]

/-- An access that lies in a block is found, with its offset in the block. -/
theorem find?_of_has (hr : r.Spaced) (h : r.Has start b) (hlow : start ≤ p)
    (hhigh : p + count ≤ start + b.size) :
    ∃ i, r.blocks[i]? = some b ∧ start = r.base i ∧ r.find? p count = some (i, p - start) := by
  obtain ⟨i, hb, rfl⟩ := h
  exact ⟨i, hb, rfl, (find?_eq_some_iff hr).2 ⟨b, hb, by omega, by omega⟩⟩

/-- The region with bytes replaced from an address on, if they lie in one block. -/
def patch (r : Region) (p : Nat) (bytes : List UInt8) : Region :=
  match r.find? p bytes.length with
  | some (i, offset) => r.write i offset bytes
  | none => r

@[simp] theorem origin_patch (r : Region) (p : Nat) (bytes : List UInt8) :
    (r.patch p bytes).origin = r.origin := by
  rw [patch]
  split <;> rfl

@[simp] theorem stride_patch (r : Region) (p : Nat) (bytes : List UInt8) :
    (r.patch p bytes).stride = r.stride := by
  rw [patch]
  split <;> rfl

@[simp] theorem size_blocks_patch (r : Region) (p : Nat) (bytes : List UInt8) :
    (r.patch p bytes).blocks.size = r.blocks.size := by
  rw [patch]
  split
  · simp [write]
  · rfl

@[simp] theorem next_patch (r : Region) (p : Nat) (bytes : List UInt8) :
    (r.patch p bytes).next = r.next := by
  simp [next, base]

/-- Replacing bytes replaces them in the block that has them, and in no other. -/
theorem getElem?_patch (hr : r.Spaced) (p : Nat) (bytes : List UInt8) (i : Nat) :
    (r.patch p bytes).blocks[i]? = (r.blocks[i]?).map fun b => b.patch (r.base i) p bytes := by
  cases hb : r.blocks[i]? with
  | none =>
    rw [Array.getElem?_eq_none_iff] at hb
    exact Array.getElem?_eq_none_iff.2 (by rw [size_blocks_patch]; exact hb)
  | some b =>
    rw [Option.map_some, Block.patch]
    by_cases hin : r.base i ≤ p ∧ p + bytes.length ≤ r.base i + b.size
    · have hfind : r.find? p bytes.length = some (i, p - r.base i) :=
        (find?_eq_some_iff hr).2 ⟨b, hb, by omega, by omega⟩
      rw [if_pos hin, patch, hfind]
      simp only [write]
      rw [Array.getElem?_modify, if_pos rfl, hb, Option.map_some]
    · rw [if_neg hin, patch]
      split
      · rename_i j offset hfind
        obtain ⟨b', hb', rfl, hfits⟩ := (find?_eq_some_iff hr).1 hfind
        have hne : j ≠ i := by
          rintro rfl
          rw [hb] at hb'
          cases hb'
          exact hin ⟨by omega, by omega⟩
        simp only [write]
        rw [Array.getElem?_modify, if_neg hne, hb]
      · exact hb

theorem has_patch (hr : r.Spaced) {bytes : List UInt8} :
    (r.patch p bytes).Has start b' ↔ ∃ b, r.Has start b ∧ b' = b.patch start p bytes := by
  constructor
  · rintro ⟨i, hb', rfl⟩
    rw [getElem?_patch hr] at hb'
    obtain ⟨b, hb, rfl⟩ := Option.map_eq_some_iff.1 hb'
    refine ⟨b, ⟨i, hb, ?_⟩, ?_⟩
    · simp [base]
    · simp [base]
  · rintro ⟨b, ⟨i, hb, rfl⟩, rfl⟩
    refine ⟨i, ?_, ?_⟩
    · rw [getElem?_patch hr, hb, Option.map_some]
    · simp [base]

theorem Spaced.patch (hr : r.Spaced) (p : Nat) (bytes : List UInt8) : (r.patch p bytes).Spaced := by
  intro b' hb'
  obtain ⟨i, hi⟩ := Array.mem_iff_getElem?.1 hb'
  rw [getElem?_patch hr] at hi
  obtain ⟨b, hb, rfl⟩ := Option.map_eq_some_iff.1 hi
  rw [Block.size_patch, stride_patch]
  exact hr b (Array.mem_of_getElem? hb)

theorem has_push : (r.push b).Has start b' ↔ r.Has start b' ∨ (start = r.next ∧ b' = b) := by
  constructor
  · rintro ⟨i, hb', rfl⟩
    simp only [push, Array.getElem?_push] at hb'
    split at hb'
    · rename_i hi
      cases hb'
      subst hi
      exact .inr ⟨rfl, rfl⟩
    · exact .inl ⟨i, hb', rfl⟩
  · rintro (⟨i, hb', rfl⟩ | ⟨rfl, rfl⟩)
    · have hlt := (Array.getElem?_eq_some_iff.1 hb').1
      refine ⟨i, ?_, rfl⟩
      simp only [push, Array.getElem?_push]
      rw [if_neg (by omega), hb']
    · refine ⟨r.blocks.size, ?_, rfl⟩
      simp [push]

theorem Spaced.push (hr : r.Spaced) (hb : b.size < r.stride) : (r.push b).Spaced := by
  intro b' hb'
  rcases Array.mem_push.1 hb' with hb' | rfl
  · exact hr b' hb'
  · exact hb

theorem next_push (r : Region) (b : Block) : (r.push b).next = r.next + r.stride := by
  simp only [next, push, Array.size_push]
  exact base_succ r r.blocks.size

end Region

/-! ## Blocks of memory -/

namespace Memory

variable {m m' : Memory} {start start' a count size : Nat} {p : Address} {b b' : Block}
  {bytes : List UInt8} {v v' : UInt8}

/-- A live block, buffer or object, starts at an address. -/
def Has (m : Memory) (start : Nat) (b : Block) : Prop :=
  m.buffers.Has start b ∨ m.objects.Has start b

/-- A live block has the byte `v` at address `a`. -/
def ByteAt (m : Memory) (a : Nat) (v : UInt8) : Prop :=
  ∃ start b, m.Has start b ∧ start ≤ a ∧ a < start + b.size ∧ b.byte (a - start) = v

/-- An access of `count` bytes lies in one live block. -/
def InBounds (m : Memory) (a count : Nat) : Prop :=
  ∃ start b, m.Has start b ∧ start ≤ a ∧ a + count ≤ start + b.size

/-- Blocks have their places: none is as large as the distance between places, buffers lie before
objects, null is in front of both, and all ends within the range of addresses. -/
structure WellPlaced (m : Memory) : Prop where
  origin_pos : 0 < m.buffers.origin
  buffers : m.buffers.Spaced
  objects : m.objects.Spaced
  /-- An object of any size that is not refused has room at its place. -/
  stride : maxAllocSize.toInt.toNat < m.objects.stride
  next_le : m.buffers.next ≤ m.objects.origin
  end_le : ∀ {start b}, m.Has start b → start + b.size ≤ addressLimit

namespace WellPlaced

variable (hm : m.WellPlaced)

include hm

/-- Live blocks lie apart, with a gap between them. -/
theorem apart (h : m.Has start b) (h' : m.Has start' b') :
    (start = start' ∧ b = b') ∨ start + b.size < start' ∨ start' + b'.size < start := by
  have hnext := hm.next_le
  rcases h with h | h <;> rcases h' with h' | h'
  · exact h.apart hm.buffers h'
  · have hend := h.lt_next hm.buffers
    have hstart := h'.origin_le
    omega
  · have hend := h'.lt_next hm.buffers
    have hstart := h.origin_le
    omega
  · exact h.apart hm.objects h'

/-- Two blocks that an address belongs to are one. -/
theorem unique (h : m.Has start b) (h' : m.Has start' b') (hlow : start ≤ a)
    (hhigh : a ≤ start + b.size) (hlow' : start' ≤ a) (hhigh' : a ≤ start' + b'.size) :
    start = start' ∧ b = b' := by
  rcases hm.apart h h' with heq | hlt | hlt
  · exact heq
  · omega
  · omega

/-- An address has one byte. -/
theorem byteAt_unique (h : m.ByteAt a v) (h' : m.ByteAt a v') : v = v' := by
  obtain ⟨start, b, hb, hlow, hhigh, rfl⟩ := h
  obtain ⟨start', b', hb', hlow', hhigh', rfl⟩ := h'
  obtain ⟨rfl, rfl⟩ := hm.unique hb hb' hlow (by omega) hlow' (by omega)
  rfl

theorem next_pos : 0 < m.objects.next := by
  have horigin := hm.origin_pos
  have hnext := hm.next_le
  have hbuffers : m.buffers.origin ≤ m.buffers.next := Nat.le_add_right _ _
  have hobjects : m.objects.origin ≤ m.objects.next := Nat.le_add_right _ _
  omega

/-- All blocks lie in front of the next object. -/
theorem lt_next (h : m.Has start b) : start + b.size < m.objects.next := by
  have hnext := hm.next_le
  have hobjects : m.objects.origin ≤ m.objects.next := Nat.le_add_right _ _
  rcases h with h | h
  · have hend := h.lt_next hm.buffers
    omega
  · exact h.lt_next hm.objects

end WellPlaced

/-! ## Reading -/

/-- The memory with bytes replaced from an address on. -/
def patch (m : Memory) (a : Nat) (bytes : List UInt8) : Memory :=
  { m with buffers := m.buffers.patch a bytes, objects := m.objects.patch a bytes }

/-- Writing replaces bytes, if they lie in one block. -/
theorem write?_eq_some_iff (hm : m.WellPlaced) :
    m.write? p bytes = some m' ↔
      m.InBounds p.toNat bytes.length ∧ m' = m.patch p.toNat bytes := by
  have hfound : ∀ {r : Region} {i offset : Nat}, r.Spaced →
      r.find? p.toNat bytes.length = some (i, offset) →
        ∃ start b, r.Has start b ∧ start ≤ p.toNat ∧ p.toNat + bytes.length ≤ start + b.size := by
    intro r i offset hr hfind
    obtain ⟨b, hb, hp, hfits⟩ := (Region.find?_eq_some_iff hr).1 hfind
    exact ⟨r.base i, b, ⟨i, hb, rfl⟩, by omega, by omega⟩
  cases hbuffers : m.buffers.find? p.toNat bytes.length with
  | some place =>
    obtain ⟨i, offset⟩ := place
    obtain ⟨start, b, hb, hlow, hhigh⟩ := hfound hm.buffers hbuffers
    -- The access ends before the first object.
    have hobjects : m.objects.find? p.toNat bytes.length = none := by
      have hend := hb.lt_next hm.buffers
      have hnext := hm.next_le
      simp only [Region.find?]
      rw [if_pos (by omega)]
    have hpatch : m.patch p.toNat bytes =
        { m with buffers := m.buffers.write i offset bytes } := by
      simp only [patch, Region.patch, hbuffers, hobjects]
    simp only [write?, hbuffers, hpatch, Option.some.injEq]
    exact ⟨fun h => ⟨⟨start, b, .inl hb, hlow, hhigh⟩, h.symm⟩, fun h => h.2.symm⟩
  | none =>
    cases hobjects : m.objects.find? p.toNat bytes.length with
    | some place =>
      obtain ⟨i, offset⟩ := place
      obtain ⟨start, b, hb, hlow, hhigh⟩ := hfound hm.objects hobjects
      have hpatch : m.patch p.toNat bytes =
          { m with objects := m.objects.write i offset bytes } := by
        simp only [patch, Region.patch, hbuffers, hobjects]
      simp only [write?, hbuffers, hobjects, hpatch, Option.some.injEq]
      exact ⟨fun h => ⟨⟨start, b, .inr hb, hlow, hhigh⟩, h.symm⟩, fun h => h.2.symm⟩
    | none =>
      simp only [write?, hbuffers, hobjects, reduceCtorEq, false_iff]
      rintro ⟨⟨start, b, hb | hb, hlow, hhigh⟩, -⟩
      · obtain ⟨i, _, _, hfind⟩ := Region.find?_of_has hm.buffers hb hlow hhigh
        rw [hbuffers] at hfind
        cases hfind
      · obtain ⟨i, _, _, hfind⟩ := Region.find?_of_has hm.objects hb hlow hhigh
        rw [hobjects] at hfind
        cases hfind

theorem has_patch (hm : m.WellPlaced) :
    (m.patch a bytes).Has start b' ↔ ∃ b, m.Has start b ∧ b' = b.patch start a bytes := by
  simp only [Has, patch, Region.has_patch hm.buffers, Region.has_patch hm.objects]
  constructor
  · rintro (⟨b, hb, rfl⟩ | ⟨b, hb, rfl⟩)
    · exact ⟨b, .inl hb, rfl⟩
    · exact ⟨b, .inr hb, rfl⟩
  · rintro ⟨b, hb | hb, rfl⟩
    · exact .inl ⟨b, hb, rfl⟩
    · exact .inr ⟨b, hb, rfl⟩

theorem WellPlaced.patch (hm : m.WellPlaced) (a : Nat) (bytes : List UInt8) :
    (m.patch a bytes).WellPlaced where
  origin_pos := by simpa [Memory.patch] using hm.origin_pos
  buffers := hm.buffers.patch a bytes
  objects := hm.objects.patch a bytes
  stride := by simpa [Memory.patch] using hm.stride
  next_le := by simpa [Memory.patch] using hm.next_le
  end_le h := by
    obtain ⟨b, hb, rfl⟩ := (has_patch hm).1 h
    rw [Block.size_patch]
    exact hm.end_le hb

/-- Replacing bytes that lie in one block changes exactly these. -/
theorem byteAt_patch (hm : m.WellPlaced) {first : Nat} (hbounds : m.InBounds first bytes.length) :
    (m.patch first bytes).ByteAt a v ↔
      (∃ k, a = first + k ∧ bytes[k]? = some v) ∨
        ((a < first ∨ first + bytes.length ≤ a) ∧ m.ByteAt a v) := by
  obtain ⟨start, b, hb, hlow, hhigh⟩ := hbounds
  have hpatched : b.patch start first bytes = b.setSlice (first - start) bytes :=
    if_pos ⟨hlow, hhigh⟩
  constructor
  · rintro ⟨start', b', hb', hlow', hhigh', rfl⟩
    obtain ⟨old, hold, rfl⟩ := (has_patch hm).1 hb'
    rw [Block.size_patch] at hhigh'
    by_cases hin : first ≤ a ∧ a < first + bytes.length
    · obtain ⟨rfl, rfl⟩ := hm.unique hb hold (a := a) (by omega) (by omega) hlow' (by omega)
      have hk : a - first < bytes.length := by omega
      refine .inl ⟨a - first, by omega, ?_⟩
      rw [hpatched, List.getElem?_eq_getElem hk,
        show a - start = first - start + (a - first) by omega,
        Block.byte_setSlice_inside _ (List.getElem?_eq_getElem hk)]
    · refine .inr ⟨by omega, start', old, hold, hlow', hhigh', ?_⟩
      rw [Block.patch]
      split
      · rw [Block.byte_setSlice_outside _ (by omega)]
      · rfl
  · rintro (⟨k, rfl, hk⟩ | ⟨hout, start', old, hold, hlow', hhigh', rfl⟩)
    · have hlt := (List.getElem?_eq_some_iff.1 hk).1
      refine ⟨start, _, (has_patch hm).2 ⟨b, hb, rfl⟩, by omega, ?_, ?_⟩
      · rw [Block.size_patch]
        omega
      · rw [hpatched, show first + k - start = first - start + k by omega,
          Block.byte_setSlice_inside _ hk]
    · refine ⟨start', _, (has_patch hm).2 ⟨old, hold, rfl⟩, hlow', ?_, ?_⟩
      · rw [Block.size_patch]
        exact hhigh'
      · rw [Block.patch]
        split
        · rw [Block.byte_setSlice_outside _ (by omega)]
        · rfl

/-- Where an object is placed, and what memory is like afterwards. -/
theorem place_eq_ok_iff :
    m.place size = .ok (p, m') ↔
      m.objects.next + size ≤ addressLimit ∧ p.toNat = m.objects.next ∧
        m' = { m with objects := m.objects.push { size }, allocated := m.allocated + size } := by
  have hlimit : addressLimit < UInt64.size := by decide
  simp only [place]
  split
  · rename_i hroom
    simp only [reduceCtorEq, false_iff]
    rintro ⟨hle, -⟩
    exact absurd hroom (Nat.not_lt.2 hle)
  · rename_i hroom
    have hle : m.objects.next + size ≤ addressLimit := Nat.not_lt.1 hroom
    have hnat : (UInt64.ofNat m.objects.next).toNat = m.objects.next :=
      UInt64.toNat_ofNat_of_lt' (by omega)
    simp only [Except.ok.injEq, Prod.mk.injEq]
    constructor
    · rintro ⟨rfl, rfl⟩
      exact ⟨hle, hnat, rfl⟩
    · rintro ⟨-, hp, rfl⟩
      exact ⟨UInt64.toNat_inj.1 (hnat.trans hp.symm), rfl⟩

/-- The sizes that are not refused, and the bytes that objects of these sizes occupy. -/
theorem objectSize?_eq_some_iff {request : Int32} :
    objectSize? request = some size ↔
      (0 ≤ request ∧ request ≤ maxAllocSize) ∧ size = max request.toInt.toNat 1 := by
  rw [objectSize?]
  split
  · rename_i hbad
    simp only [reduceCtorEq, false_iff]
    rintro ⟨⟨hpos, hle⟩, -⟩
    rcases hbad with hbad | hbad
    · exact absurd hpos (Int32.not_le.2 hbad)
    · exact absurd hle (Int32.not_le.2 hbad)
  · rename_i hgood
    rw [not_or, Int32.not_lt, Int32.not_lt] at hgood
    simp only [Option.some.injEq, hgood, and_self, true_and, eq_comm]

/-- An object is never larger than the largest request, which is not zero. -/
theorem objectSize?_le {request : Int32} (h : objectSize? request = some size) :
    0 < size ∧ size ≤ maxAllocSize.toInt.toNat := by
  obtain ⟨⟨-, hle⟩, rfl⟩ := objectSize?_eq_some_iff.1 h
  have hmax : maxAllocSize.toInt = 16777216 := by decide
  rw [Int32.le_iff_toInt_le, hmax] at hle
  rw [hmax]
  omega

/-- Besides the blocks from before there is the new one. -/
theorem has_place (h : m.place size = .ok (p, m')) :
    m'.Has start b ↔ m.Has start b ∨ (start = p.toNat ∧ b = { size }) := by
  obtain ⟨-, hp, rfl⟩ := place_eq_ok_iff.1 h
  simp only [Has, Region.has_push, hp, or_assoc]

theorem WellPlaced.place (hm : m.WellPlaced) (hsize : size ≤ maxAllocSize.toInt.toNat)
    (h : m.place size = .ok (p, m')) : m'.WellPlaced := by
  have hstride := hm.stride
  have hends : ∀ {start b}, m'.Has start b → start + b.size ≤ addressLimit := by
    intro start b hb
    rcases (has_place h).1 hb with hb | ⟨rfl, rfl⟩
    · exact hm.end_le hb
    · obtain ⟨hle, hp, -⟩ := place_eq_ok_iff.1 h
      rw [hp]
      exact hle
  obtain ⟨-, -, rfl⟩ := place_eq_ok_iff.1 h
  exact ⟨hm.origin_pos, hm.buffers, hm.objects.push (by simp only; omega), hstride, hm.next_le,
    hends⟩

/-- A new block is zero everywhere. -/
theorem byte_new (size k : Nat) : ({ size } : Block).byte k = 0 := by
  simp [Block.byte]

/-! ## Release -/

/-- Only buffers survive a reset. -/
theorem has_reset : m.reset.Has start b ↔ m.buffers.Has start b := by
  constructor
  · rintro (hb | ⟨i, hb, -⟩)
    · exact hb
    · simp [reset, Region.clear] at hb
  · exact .inl

theorem WellPlaced.reset (hm : m.WellPlaced) : m.reset.WellPlaced where
  origin_pos := hm.origin_pos
  buffers := hm.buffers
  objects b hb := by simp [Memory.reset, Region.clear] at hb
  stride := hm.stride
  next_le := Nat.le_trans hm.next_le (Nat.le_add_right _ _)
  end_le h := hm.end_le (.inl (has_reset.1 h))

/-! ## Buffers -/

theorem buffers_ofBuffers (contents : List (List UInt8)) :
    (ofBuffers contents).buffers =
      { ({} : Memory).buffers with blocks := (contents.map Block.ofBytes).toArray } := by
  have hpush : ∀ (contents : List (List UInt8)) (r : Region),
      contents.foldl (fun r bytes => r.push (.ofBytes bytes)) r =
        { r with blocks := r.blocks ++ (contents.map Block.ofBytes).toArray } := by
    intro contents
    induction contents with
    | nil => simp
    | cons bytes rest ih =>
      intro r
      rw [List.foldl_cons, ih]
      simp [Region.push]
  simp only [ofBuffers, hpush]
  simp

/-- A memory of buffers that are not too large and not too many is well placed. -/
theorem wellPlaced_ofBuffers {contents : List (List UInt8)} (hcount : contents.length ≤ 2 ^ 20)
    (hsize : ∀ bytes ∈ contents, bytes.length < 2 ^ 40) : (ofBuffers contents).WellPlaced := by
  have hbuffers := buffers_ofBuffers contents
  have hspaced : (ofBuffers contents).buffers.Spaced := by
    intro b hb
    rw [hbuffers] at hb ⊢
    obtain ⟨bytes, hmem, rfl⟩ := List.mem_map.1 (List.mem_toArray.1 hb)
    exact lt_of_eq_of_lt (Block.size_setSlice _ _ _) (hsize bytes hmem)
  have hnext : (ofBuffers contents).buffers.next ≤ ({} : Memory).objects.origin := by
    have hend : (ofBuffers contents).buffers.next = 0x3a5f1c926e80 + contents.length * 2 ^ 40 := by
      rw [hbuffers]
      simp [Region.next, Region.base]
    have horigin : ({} : Memory).objects.origin = 0x1b873c6ef372fe90 := rfl
    omega
  have horigin : 0 < (ofBuffers contents).buffers.origin := by
    rw [hbuffers]
    exact (by decide : 0 < ({} : Memory).buffers.origin)
  have hstride : maxAllocSize.toInt.toNat < ({} : Memory).objects.stride := by decide
  refine ⟨horigin, hspaced, ?_, hstride, hnext, ?_⟩
  · intro b hb
    simp [ofBuffers] at hb
  · rintro start b (hb | ⟨i, hb, -⟩)
    · have hlimit : ({} : Memory).objects.origin ≤ addressLimit := by decide
      have hend := hb.lt_next hspaced
      omega
    · simp [ofBuffers] at hb

end Memory

end TierVm
