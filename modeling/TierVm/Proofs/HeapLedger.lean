import Mathlib.Data.List.Basic
import TierVm.Proofs.MemoryBlocks
import TierVm.Support.Routine

/-!
# The ledger of the heap

Objects come into being by requests, change by stores and go all at once.  A list of these events
is enough to tell the heap that they lead to: which objects live, what they hold and how many bytes
are allocated.  The ledger is kept without looking at memory, and memory is proved to agree with it.

* `HeapEvent` is one such event, and `Memory.after?` carries a list of them out.
* `liveRequests` lists the requests that were granted since the last reset, and `lastByte` the
  byte that was stored last at an address.
* `Memory.Accounted` is the invariant: memory is what the ledger says.  `Accounted.step?` is the
  step, and `Accounted.after?` the induction over a history.
* `Region.Keeps` says that the blocks of a region are still there, with what was stored since.
  `keeps_after?` is the induction for objects, as long as there is no reset.
* `Memory.AllocatesExactly` says when a request is refused, and what comes of one that is granted.
-/

namespace TierVm

/-! ## Events -/

/-- What can happen to the heap. -/
inductive HeapEvent where
  /-- An object of a size is asked for. -/
  | alloc (size : Int32)
  | store (p : Address) (bytes : List UInt8)
  /-- All objects are released. -/
  | reset
  deriving DecidableEq

/-- Bytes that an object of a requested size occupies. -/
def occupied (size : Int32) : Nat := max size.toInt.toNat 1

/-- A request that is refused. -/
def Refused (size : Int32) : Prop := size < 0 ∨ maxAllocSize < size

instance (size : Int32) : Decidable (Refused size) :=
  inferInstanceAs (Decidable (size < 0 ∨ maxAllocSize < size))

namespace HeapEvent

/-- The byte that an event stores at an address. -/
def byteAt? (a : Nat) : HeapEvent → Option UInt8
  | .store p bytes => if p.toNat ≤ a then bytes[a - p.toNat]? else none
  | _ => none

/-- The requests of the live objects, after an event. -/
def live (requests : List Int32) : HeapEvent → List Int32
  | .alloc size => if Refused size then requests else requests ++ [size]
  | .store _ _ => requests
  | .reset => []

theorem alloc_ne_reset (size : Int32) : alloc size ≠ reset := by
  intro h
  cases h

theorem store_ne_reset (p : Address) (bytes : List UInt8) : store p bytes ≠ reset := by
  intro h
  cases h

end HeapEvent

/-- The byte that was stored last at an address. -/
def lastByte (events : List HeapEvent) (a : Nat) : Option UInt8 :=
  events.reverse.findSome? (·.byteAt? a)

/-- The requests that were granted since the last reset, in order. -/
def liveRequests (events : List HeapEvent) : List Int32 := events.foldl HeapEvent.live []

theorem lastByte_append (events more : List HeapEvent) (a : Nat) :
    lastByte (events ++ more) a = (lastByte more a).or (lastByte events a) := by
  rw [lastByte, List.reverse_append, List.findSome?_append]
  rfl

@[simp] theorem lastByte_singleton (e : HeapEvent) (a : Nat) :
    lastByte [e] a = e.byteAt? a := by
  rw [lastByte, List.reverse_singleton, List.findSome?_singleton]

theorem liveRequests_snoc (events : List HeapEvent) (e : HeapEvent) :
    liveRequests (events ++ [e]) = e.live (liveRequests events) := by
  simp [liveRequests]

namespace Memory

variable {m m' : Memory} {e : HeapEvent} {events : List HeapEvent}

/-- Memory after an event, if the event can take place.  A request that is refused changes
nothing. -/
def step? (m : Memory) : HeapEvent → Option Memory
  | .alloc size =>
    match m.alloc size with
    | .ok (_, m') => some m'
    | .error (.abort _) => some m
    | .error (.stop _) => none
  | .store p bytes => m.write? p bytes
  | .reset => some m.reset

/-- Memory after events. -/
def after? (m : Memory) (events : List HeapEvent) : Option Memory := events.foldlM step? m

theorem after?_cons (m : Memory) (e : HeapEvent) (events : List HeapEvent) :
    m.after? (e :: events) = (m.step? e).bind (·.after? events) := rfl

theorem after?_append (m : Memory) (events more : List HeapEvent) :
    m.after? (events ++ more) = (m.after? events).bind (·.after? more) := by
  rw [after?, List.foldlM_append]
  rfl

/-! ## Requests -/

section Requests

variable {size : Int32} {q : Address}

theorem objectSize?_eq (size : Int32) :
    objectSize? size = if Refused size then none else some (occupied size) := rfl

theorem occupied_le (h : ¬ Refused size) : occupied size ≤ maxAllocSize.toInt.toNat := by
  have hsize := objectSize?_eq size
  rw [if_neg h] at hsize
  exact (objectSize?_le hsize).2

theorem alloc_eq_abort_iff {a : Abort} :
    m.alloc size = .error (.abort a) ↔
      Refused size ∧ a = { reason := .arrayTooLarge, arg := size } := by
  rw [alloc, objectSize?_eq]
  by_cases hbad : Refused size
  · simp [hbad, eq_comm]
  · simp only [hbad, if_false, false_and, iff_false]
    cases m.place (occupied size) <;> simp

theorem alloc_eq_ok_iff :
    m.alloc size = .ok (q, m') ↔ ¬ Refused size ∧ m.place (occupied size) = .ok (q, m') := by
  rw [alloc, objectSize?_eq]
  by_cases hbad : Refused size
  · simp [hbad]
  · simp only [hbad, if_false, not_false_iff, true_and]
    cases m.place (occupied size) <;> simp

theorem alloc_eq_stop_iff {s : Stop} :
    m.alloc size = .error (.stop s) ↔
      ¬ Refused size ∧ addressLimit < m.objects.next + occupied size ∧ s = .outOfMemory := by
  rw [alloc, objectSize?_eq]
  by_cases hbad : Refused size
  · simp [hbad]
  · simp only [hbad, if_false, not_false_iff, true_and, place]
    by_cases hroom : addressLimit < m.objects.base m.objects.blocks.size + occupied size
    · simp [hroom, Region.next, eq_comm]
    · simp [hroom, Region.next]

/-- What becomes of a request, unless there is no room left. -/
theorem step?_alloc_eq_some (h : m.step? (.alloc size) = some m') :
    (Refused size ∧ m' = m) ∨ (¬ Refused size ∧ ∃ q, m.place (occupied size) = .ok (q, m')) := by
  simp only [step?] at h
  split at h
  · rename_i halloc
    cases h
    obtain ⟨hgood, hplace⟩ := alloc_eq_ok_iff.1 halloc
    exact .inr ⟨hgood, _, hplace⟩
  · rename_i halloc
    cases h
    exact .inl ⟨(alloc_eq_abort_iff.1 halloc).1, rfl⟩
  · cases h

end Requests

end Memory

/-! ## Blocks that are kept -/

/-- The blocks of a region are still there, with the bytes that were stored since. -/
def Region.Keeps (events : List HeapEvent) (r r' : Region) : Prop :=
  ∀ ⦃start b⦄, r.Has start b → ∃ b', r'.Has start b' ∧ b'.size = b.size ∧
    ∀ k < b.size, b'.byte k = (lastByte events (start + k)).getD (b.byte k)

namespace Region

variable {r r₁ r₂ r₃ : Region} {events more : List HeapEvent}

/-- Blocks that are not touched are kept. -/
theorem Keeps.of_has (hhas : ∀ {start b}, r₁.Has start b → r₂.Has start b)
    (hstored : ∀ a, lastByte events a = none) : r₁.Keeps events r₂ := by
  intro start b hb
  refine ⟨b, hhas hb, rfl, ?_⟩
  intro k _
  rw [hstored]
  rfl

theorem Keeps.refl (r : Region) : r.Keeps [] r := Keeps.of_has (fun h => h) fun _ => rfl

theorem Keeps.trans (h₁ : r₁.Keeps events r₂) (h₂ : r₂.Keeps more r₃) :
    r₁.Keeps (events ++ more) r₃ := by
  intro start b hb
  obtain ⟨b₂, hb₂, hsize₂, hbytes₂⟩ := h₁ hb
  obtain ⟨b₃, hb₃, hsize₃, hbytes₃⟩ := h₂ hb₂
  refine ⟨b₃, hb₃, hsize₃.trans hsize₂, ?_⟩
  intro k hk
  rw [hbytes₃ k (by omega), hbytes₂ k hk, lastByte_append]
  cases lastByte more (start + k) <;> rfl

end Region

namespace Memory

variable {m m' : Memory} {e : HeapEvent} {events : List HeapEvent} {p : Address}
  {bytes : List UInt8}

/-- A store leaves its own bytes in a block, and elsewhere the bytes from before. -/
theorem WellPlaced.byte_patch (hm : m.WellPlaced) (hbounds : m.InBounds p.toNat bytes.length)
    {start k : Nat} {b : Block} (hb : m.Has start b) (hk : k < b.size) :
    (b.patch start p.toNat bytes).byte k =
      ((HeapEvent.store p bytes).byteAt? (start + k)).getD (b.byte k) := by
  have hpatched : (m.patch p.toNat bytes).ByteAt (start + k)
      ((b.patch start p.toNat bytes).byte k) :=
    ⟨start, _, (has_patch hm).2 ⟨b, hb, rfl⟩, by omega, by rw [Block.size_patch]; omega,
      by rw [Nat.add_sub_cancel_left]⟩
  rw [HeapEvent.byteAt?]
  rcases (byteAt_patch hm hbounds).1 hpatched with ⟨j, ha, hj⟩ | ⟨hout, hold⟩
  · rw [if_pos (by omega), show start + k - p.toNat = j by omega, hj]
    rfl
  · have hbefore : m.ByteAt (start + k) (b.byte k) :=
      ⟨start, b, hb, by omega, by omega, by rw [Nat.add_sub_cancel_left]⟩
    have hsame := hm.byteAt_unique hold hbefore
    rw [hsame]
    split
    · rw [List.getElem?_eq_none (by omega)]
      rfl
    · rfl

/-- Stores keep the blocks of both regions. -/
theorem keeps_patch (hm : m.WellPlaced) (hbounds : m.InBounds p.toNat bytes.length) {r : Region}
    (hr : r.Spaced) (hregion : ∀ {start b}, r.Has start b → m.Has start b) :
    r.Keeps [.store p bytes] (r.patch p.toNat bytes) := by
  intro start b hb
  refine ⟨_, (Region.has_patch hr).2 ⟨b, hb, rfl⟩, Block.size_patch b _ _ _, ?_⟩
  intro k hk
  rw [hm.byte_patch hbounds (hregion hb) hk, lastByte_singleton]

/-- Whatever happens, blocks stay well placed. -/
theorem WellPlaced.step? (hm : m.WellPlaced) (h : m.step? e = some m') : m'.WellPlaced := by
  cases e with
  | alloc size =>
    obtain ⟨-, rfl⟩ | ⟨hgood, q, hplace⟩ := step?_alloc_eq_some h
    · exact hm
    · exact hm.place (occupied_le hgood) hplace
  | store p bytes =>
    obtain ⟨-, rfl⟩ := (write?_eq_some_iff hm).1 h
    exact hm.patch _ _
  | reset =>
    cases h
    exact hm.reset

/-- Buffers are kept whatever happens. -/
theorem keeps_buffers (hm : m.WellPlaced) (h : m.step? e = some m') :
    m.buffers.Keeps [e] m'.buffers := by
  cases e with
  | alloc size =>
    refine .of_has ?_ fun a => lastByte_singleton _ a
    obtain ⟨-, rfl⟩ | ⟨-, q, hplace⟩ := step?_alloc_eq_some h
    · exact fun hb => hb
    · obtain ⟨-, -, rfl⟩ := place_eq_ok_iff.1 hplace
      exact fun hb => hb
  | store p bytes =>
    obtain ⟨hbounds, rfl⟩ := (write?_eq_some_iff hm).1 h
    exact keeps_patch hm hbounds hm.buffers .inl
  | reset =>
    cases h
    exact .of_has (fun hb => hb) fun a => lastByte_singleton _ a

/-- Objects are kept by everything but a reset. -/
theorem keeps_objects (hm : m.WellPlaced) (hreset : e ≠ .reset) (h : m.step? e = some m') :
    m.objects.Keeps [e] m'.objects := by
  cases e with
  | alloc size =>
    refine .of_has ?_ fun a => lastByte_singleton _ a
    obtain ⟨-, rfl⟩ | ⟨-, q, hplace⟩ := step?_alloc_eq_some h
    · exact fun hb => hb
    · obtain ⟨-, -, rfl⟩ := place_eq_ok_iff.1 hplace
      exact fun hb => Region.has_push.2 (.inl hb)
  | store p bytes =>
    obtain ⟨hbounds, rfl⟩ := (write?_eq_some_iff hm).1 h
    exact keeps_patch hm hbounds hm.objects .inr
  | reset => exact absurd rfl hreset

/-- Buffers and objects outlive every sequence of events without a reset. -/
theorem keeps_after? (hm : m.WellPlaced) (hreset : .reset ∉ events)
    (h : m.after? events = some m') :
    m'.WellPlaced ∧ m.buffers.Keeps events m'.buffers ∧ m.objects.Keeps events m'.objects := by
  induction events generalizing m with
  | nil =>
    cases h
    exact ⟨hm, .refl _, .refl _⟩
  | cons e events ih =>
    rw [after?_cons] at h
    obtain ⟨m₁, hstep, hrest⟩ := Option.bind_eq_some_iff.1 h
    have he : e ≠ .reset := by
      rintro rfl
      exact hreset (List.mem_cons_self ..)
    obtain ⟨hm', hbuffers, hobjects⟩ :=
      ih (hm.step? hstep) (fun hmem => hreset (List.mem_cons_of_mem _ hmem)) hrest
    exact ⟨hm', (keeps_buffers hm hstep).trans hbuffers,
      (keeps_objects hm he hstep).trans hobjects⟩

/-! ## The invariant -/

/-- Memory is what the ledger of a history says, which began in the first memory. -/
structure Accounted (m₀ : Memory) (events : List HeapEvent) (m : Memory) : Prop where
  placed : m.WellPlaced
  /-- The live objects are those that were asked for, each with the bytes that it occupies. -/
  sizes : m.objects.blocks.toList.map (·.size) = (liveRequests events).map occupied
  allocated : m.allocated = ((liveRequests events).map occupied).sum
  /-- An object holds what was stored last, and zeros elsewhere. -/
  contents : ∀ {start b}, m.objects.Has start b →
    ∀ k < b.size, b.byte k = (lastByte events (start + k)).getD 0
  /-- The buffers are those from the beginning, with what was stored in them. -/
  buffers : m₀.buffers.Keeps events m.buffers ∧ m.buffers.blocks.size = m₀.buffers.blocks.size
  /-- Nothing was ever stored where the next object will be, or behind. -/
  fresh : ∀ a, m.objects.next ≤ a → lastByte events a = none

/-- A memory without objects is accounted for before anything happens. -/
theorem accounted_nil {m₀ : Memory} (hplaced : m₀.WellPlaced)
    (hempty : m₀.objects.blocks = #[]) (hzero : m₀.allocated = 0) : Accounted m₀ [] m₀ where
  placed := hplaced
  sizes := by rw [hempty]; rfl
  allocated := hzero
  contents := by
    rintro start b ⟨i, hb, -⟩
    rw [hempty] at hb
    cases hb
  buffers := ⟨.refl _, rfl⟩
  fresh _ _ := rfl

theorem sizes_patch {r : Region} (hr : r.Spaced) (a : Nat) (bytes : List UInt8) :
    (r.patch a bytes).blocks.toList.map (·.size) = r.blocks.toList.map (·.size) := by
  apply List.ext_getElem?
  intro i
  rw [List.getElem?_map, List.getElem?_map, Array.getElem?_toList, Array.getElem?_toList,
    Region.getElem?_patch hr, Option.map_map]
  simp [Function.comp_def]

namespace Accounted

variable {m₀ : Memory} (hm : Accounted m₀ events m)

include hm

/-- A request: the ledger is longer by one object, or the request was refused. -/
theorem alloc {size : Int32} (h : m.step? (.alloc size) = some m') :
    Accounted m₀ (events ++ [.alloc size]) m' := by
  have hstored : ∀ a, lastByte (events ++ [.alloc size]) a = lastByte events a := by
    intro a
    rw [lastByte_append, lastByte_singleton]
    rfl
  have hbuffers := hm.buffers.1.trans (keeps_buffers hm.placed h)
  have hplaced := hm.placed.step? h
  obtain ⟨hbad, rfl⟩ | ⟨hgood, q, hplace⟩ := step?_alloc_eq_some h
  · have hlive : liveRequests (events ++ [.alloc size]) = liveRequests events := by
      rw [liveRequests_snoc, HeapEvent.live, if_pos hbad]
    refine ⟨hplaced, ?_, ?_, ?_, ⟨hbuffers, hm.buffers.2⟩, ?_⟩
    · rw [hlive]
      exact hm.sizes
    · rw [hlive]
      exact hm.allocated
    · intro start b hb k hk
      rw [hstored]
      exact hm.contents hb k hk
    · intro a ha
      rw [hstored]
      exact hm.fresh a ha
  · have hlive : liveRequests (events ++ [.alloc size]) = liveRequests events ++ [size] := by
      rw [liveRequests_snoc, HeapEvent.live, if_neg hgood]
    obtain ⟨-, -, rfl⟩ := place_eq_ok_iff.1 hplace
    refine ⟨hplaced, ?_, ?_, ?_, ⟨hbuffers, hm.buffers.2⟩, ?_⟩
    · simp only [hlive, Region.push, Array.toList_push, List.map_append, hm.sizes, List.map_cons,
        List.map_nil]
    · simp only [hlive, List.map_append, List.sum_append, List.map_cons, List.map_nil,
        List.sum_singleton, hm.allocated]
    · intro start b hb k hk
      rw [hstored]
      rcases Region.has_push.1 hb with hb | ⟨rfl, rfl⟩
      · exact hm.contents hb k hk
      · rw [hm.fresh _ (Nat.le_add_right _ _)]
        exact byte_new _ k
    · intro a ha
      rw [hstored]
      rw [Region.next_push] at ha
      exact hm.fresh a (by omega)

/-- A store: the bytes are those that were stored last. -/
theorem store {p : Address} {bytes : List UInt8} (h : m.step? (.store p bytes) = some m') :
    Accounted m₀ (events ++ [.store p bytes]) m' := by
  obtain ⟨hbounds, rfl⟩ := (write?_eq_some_iff hm.placed).1 h
  have hlive : liveRequests (events ++ [.store p bytes]) = liveRequests events := by
    rw [liveRequests_snoc]
    rfl
  have hbuffers := hm.buffers.1.trans (keeps_buffers hm.placed h)
  refine ⟨hm.placed.patch _ _, ?_, ?_, ?_, ⟨hbuffers, ?_⟩, ?_⟩
  · rw [hlive, ← hm.sizes]
    exact sizes_patch hm.placed.objects _ _
  · rw [hlive, ← hm.allocated]
    rfl
  · intro start b' hb' k hk
    obtain ⟨b, hb, rfl⟩ := (Region.has_patch hm.placed.objects).1 hb'
    rw [Block.size_patch] at hk
    rw [hm.placed.byte_patch hbounds (.inr hb) hk, hm.contents hb k hk, lastByte_append,
      lastByte_singleton]
    cases (HeapEvent.store p bytes).byteAt? (start + k) <;> rfl
  · rw [← hm.buffers.2]
    exact Region.size_blocks_patch _ _ _
  · intro a ha
    have hnext : (m.patch p.toNat bytes).objects.next = m.objects.next := Region.next_patch _ _ _
    rw [hnext] at ha
    obtain ⟨start, b, hb, hlow, hhigh⟩ := hbounds
    have hend := hm.placed.lt_next hb
    rw [lastByte_append, lastByte_singleton, hm.fresh a ha, HeapEvent.byteAt?]
    split
    · rw [List.getElem?_eq_none (by omega)]
      rfl
    · rfl

/-- A reset: no objects are left, and the places of the old ones are not used again. -/
theorem reset : Accounted m₀ (events ++ [.reset]) m.reset := by
  have hstored : ∀ a, lastByte (events ++ [.reset]) a = lastByte events a := by
    intro a
    rw [lastByte_append, lastByte_singleton]
    rfl
  have hlive : liveRequests (events ++ [.reset]) = [] := liveRequests_snoc _ _
  have hnone : m.reset.objects.blocks = #[] := rfl
  refine ⟨hm.placed.reset, ?_, ?_, ?_, ⟨hm.buffers.1.trans (keeps_buffers hm.placed rfl),
    hm.buffers.2⟩, ?_⟩
  · rw [hlive, hnone]
    rfl
  · rw [hlive]
    rfl
  · rintro start b ⟨i, hb, -⟩
    rw [hnone] at hb
    cases hb
  · intro a ha
    rw [hstored]
    refine hm.fresh a (Nat.le_trans ?_ ha)
    exact Nat.le_add_right _ _

/-- One event keeps memory and ledger in step. -/
theorem step? (h : m.step? e = some m') : Accounted m₀ (events ++ [e]) m' := by
  cases e with
  | alloc size => exact hm.alloc h
  | store p bytes => exact hm.store h
  | reset =>
    cases h
    exact hm.reset

/-- Any number of events keeps memory and ledger in step. -/
theorem after? {more : List HeapEvent} (h : m.after? more = some m') :
    Accounted m₀ (events ++ more) m' := by
  induction more generalizing m events with
  | nil =>
    cases h
    rw [List.append_nil]
    exact hm
  | cons e more ih =>
    rw [after?_cons] at h
    obtain ⟨m₁, hstep, hrest⟩ := Option.bind_eq_some_iff.1 h
    rw [List.append_cons]
    exact ih (hm.step? hstep) hrest

end Accounted

/-! ## Allocation -/

/-- A new object of zeros lies apart from all that lives, which stays as it is. -/
structure Adds (m : Memory) (size : Nat) (q : Address) (m' : Memory) : Prop where
  ne_null : q ≠ 0
  /-- The new object starts behind the end of every live block. -/
  apart : ∀ {start b}, m.Has start b → start + b.size < q.toNat
  zero : ∀ k < size, m'.ByteAt (q.toNat + k) 0
  buffers : m'.buffers = m.buffers
  objects : ∀ {start b}, m'.objects.Has start b ↔
    m.objects.Has start b ∨ (start = q.toNat ∧ b = { size })
  /-- Bytes that were there are still there. -/
  bytes : ∀ {a v}, m.ByteAt a v → m'.ByteAt a v
  allocated : m'.allocated = m.allocated + size

/-- How requests are answered: refused for their size and for nothing else, with the size as the
argument of the abort; granted with a new object; or left without an answer because no room is left
in the address space.  The routine that compiled code calls does the same and reports a refusal in
an exception record. -/
structure AllocatesExactly (m : Memory) : Prop where
  refused : ∀ {size : Int32} {a : Abort}, m.alloc size = .error (.abort a) ↔
    (size < 0 ∨ maxAllocSize < size) ∧ a = { reason := .arrayTooLarge, arg := size }
  unchanged : ∀ {size : Int32}, size < 0 ∨ maxAllocSize < size → m.step? (.alloc size) = some m
  full : ∀ {size : Int32} {s : Stop}, m.alloc size = .error (.stop s) ↔
    ¬ (size < 0 ∨ maxAllocSize < size) ∧ addressLimit < m.objects.next + occupied size ∧
      s = .outOfMemory
  granted : ∀ {size : Int32} {q : Address} {m' : Memory}, m.alloc size = .ok (q, m') →
    m.Adds (occupied size) q m'
  routine : ∀ (size : Int32) (place : Option Location) (r : ExceptionRecord),
    Support.allocObject m size place r =
      match m.alloc size with
      | .ok (q, m') => .ok (q, m', r)
      | .error (.abort a) => .ok (0, m, r.raise a place)
      | .error (.stop s) => .error s

/-- Requests are answered exactly wherever blocks are well placed. -/
theorem WellPlaced.allocatesExactly (hm : m.WellPlaced) : m.AllocatesExactly where
  refused := alloc_eq_abort_iff
  unchanged hbad := by
    have halloc := (alloc_eq_abort_iff (m := m)).2 ⟨hbad, rfl⟩
    simp only [Memory.step?, halloc]
  full := alloc_eq_stop_iff
  granted halloc := by
    obtain ⟨hgood, hplace⟩ := alloc_eq_ok_iff.1 halloc
    obtain ⟨-, hq, rfl⟩ := place_eq_ok_iff.1 hplace
    refine ⟨?_, ?_, ?_, rfl, ?_, ?_, rfl⟩
    · rintro rfl
      have hpos := hm.next_pos
      rw [← hq] at hpos
      exact absurd hpos (by decide)
    · intro start b hb
      rw [hq]
      exact hm.lt_next hb
    · intro k hk
      refine ⟨_, _, (has_place hplace).2 (.inr ⟨rfl, rfl⟩), Nat.le_add_right _ _, ?_, byte_new _ _⟩
      exact Nat.add_lt_add_left hk _
    · intro start b
      rw [hq]
      exact Region.has_push
    · rintro a v ⟨start, b, hb, hrest⟩
      exact ⟨start, b, (has_place hplace).2 (.inl hb), hrest⟩
  routine _ _ _ := rfl

end Memory

end TierVm
