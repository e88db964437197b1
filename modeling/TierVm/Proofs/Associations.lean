import Mathlib.Data.List.Nodup

/-!
# Association lists

Caches keep their entries in a list of pairs, with one pair for each key.  So do the ledgers that
tell who holds the code memory.

* `Assoc.put` is what both do to store a value: it replaces an earlier one of the key.
* `Assoc.Distinct` is the invariant.
* `lookup_put` and `length_put` say what `put` does to lookups and to the number of entries.
-/

namespace TierVm

namespace Assoc

variable {α β : Type} {l : List (α × β)} {k j : α} {v : β}

/-- No key occurs twice. -/
def Distinct (l : List (α × β)) : Prop := (l.map (·.1)).Nodup

theorem notMem_of_distinct_cons {entry : α × β} (h : Distinct (entry :: l)) :
    entry.1 ∉ l.map (·.1) := (List.nodup_cons.1 h).1

theorem Distinct.tail {entry : α × β} (h : Distinct (entry :: l)) : Distinct l :=
  (List.nodup_cons.1 h).2

theorem Distinct.filter (h : Distinct l) (keep : α × β → Bool) : Distinct (l.filter keep) :=
  h.sublist (List.Sublist.map _ List.filter_sublist)

variable [DecidableEq α]

/-- Store a value under a key, in place of an earlier one. -/
def put (k : α) (v : β) (l : List (α × β)) : List (α × β) := (k, v) :: l.filter (·.1 != k)

theorem mem_keys_filter_ne : j ∈ (l.filter (·.1 != k)).map (·.1) ↔ j ∈ l.map (·.1) ∧ j ≠ k := by
  simp only [List.mem_map, List.mem_filter, bne_iff_ne]
  constructor
  · rintro ⟨entry, ⟨hentry, hne⟩, rfl⟩
    exact ⟨⟨entry, hentry, rfl⟩, hne⟩
  · rintro ⟨⟨entry, hentry, rfl⟩, hne⟩
    exact ⟨entry, ⟨hentry, hne⟩, rfl⟩

theorem filter_ne_eq_self (h : k ∉ l.map (·.1)) : l.filter (·.1 != k) = l := by
  refine List.filter_eq_self.2 ?_
  intro entry hentry
  have hne : entry.1 ≠ k := fun heq => h (List.mem_map.2 ⟨entry, hentry, heq⟩)
  simpa using hne

theorem Distinct.put (h : Distinct l) (k : α) (v : β) : Distinct (put k v l) := by
  refine List.nodup_cons.2 ⟨?_, h.filter _⟩
  intro hmem
  exact (mem_keys_filter_ne.1 hmem).2 rfl

theorem mem_keys_put : j ∈ (put k v l).map (·.1) ↔ j = k ∨ j ∈ l.map (·.1) := by
  rw [put, List.map_cons, List.mem_cons, mem_keys_filter_ne]
  by_cases hj : j = k
  · simp [hj]
  · simp [hj]

/-- A key is found if it occurs. -/
theorem mem_keys_iff : k ∈ l.map (·.1) ↔ (l.lookup k).isSome := by
  induction l with
  | nil => simp
  | cons entry rest ih =>
    obtain ⟨j, v⟩ := entry
    by_cases hk : k = j
    · simp [hk]
    · have hne : (k == j) = false := by simpa using hk
      simp only [List.map_cons, List.mem_cons, hk, false_or, List.lookup_cons, hne]
      exact ih

theorem lookup_filter_ne (hj : j ≠ k) : (l.filter (·.1 != k)).lookup j = l.lookup j := by
  induction l with
  | nil => rfl
  | cons entry rest ih =>
    obtain ⟨i, v⟩ := entry
    by_cases hi : i = k
    · subst hi
      have hne : (j == i) = false := by simpa using hj
      simp [List.lookup_cons, hne, ih]
    · have hkeep : ((i, v) :: rest).filter (·.1 != k) = (i, v) :: rest.filter (·.1 != k) := by
        simp [hi]
      rw [hkeep, List.lookup_cons, List.lookup_cons, ih]

theorem lookup_put : (put k v l).lookup j = if j = k then some v else l.lookup j := by
  rw [put, List.lookup_cons]
  by_cases hj : j = k
  · simp [hj]
  · have hne : (j == k) = false := by simpa using hj
    simp only [hne, hj, if_false]
    exact lookup_filter_ne hj

/-- A list without a key is shorter by one if the key was there. -/
theorem length_filter_ne (h : Distinct l) (hk : k ∈ l.map (·.1)) :
    (l.filter (·.1 != k)).length + 1 = l.length := by
  induction l with
  | nil => cases hk
  | cons entry rest ih =>
    obtain ⟨j, v⟩ := entry
    have hfresh := notMem_of_distinct_cons h
    by_cases hj : j = k
    · subst hj
      have hrest : ((j, v) :: rest).filter (·.1 != j) = rest := by
        simpa using filter_ne_eq_self hfresh
      rw [hrest, List.length_cons]
    · have hmem : k ∈ rest.map (·.1) := by simpa [Ne.symm hj] using hk
      have hkeep : ((j, v) :: rest).filter (·.1 != k) = (j, v) :: rest.filter (·.1 != k) := by
        simp [hj]
      rw [hkeep, List.length_cons, List.length_cons, ih h.tail hmem]

/-- Storing a value makes a list longer by one, unless the key was there. -/
theorem length_put (h : Distinct l) :
    (put k v l).length = if k ∈ l.map (·.1) then l.length else l.length + 1 := by
  rw [put, List.length_cons]
  split
  · rename_i hk
    exact length_filter_ne h hk
  · rename_i hk
    rw [filter_ne_eq_self hk]

end Assoc

end TierVm
