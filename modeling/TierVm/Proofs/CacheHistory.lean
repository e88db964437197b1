import Mathlib.Algebra.GroupWithZero.Nat
import Mathlib.Data.List.Dedup
import TierVm.Proofs.Associations
import TierVm.Tier.CodeCache

/-!
# Histories of a code cache

A cache counts the bytes of its code beside the entries.  Code replaces earlier code of its
function, inserts are refused when the budget is used up, and an entry that was invalidated still
counts.  This module proves that the counter is right after any sequence of operations, and that
the cache answers as its history says.

* `CodeCache.WellKept` is the invariant: one entry for each function, a total that is the sum of
  all sizes, and within the limit.
* `WellKept.insert_eq` says when an insert is refused and what it makes of the cache.
  `entry_insert` and `entry_invalidate` say what an operation does to the entry of a function.
* `CodeCache.history` runs a sequence of operations and notes what each of them did.
  `entryOf` reads the entry of a function off such notes, without a cache.
* `cache_refines_history` is the whole contract of a cache, after any operations.
-/

namespace TierVm

namespace CodeCache

variable {c c' : CodeCache} {id k : FunctionId} {code : CompiledCode}
  {entries : List (FunctionId × CacheEntry)}

/-! ## Sizes -/

/-- Sum of the sizes of entries, valid or not. -/
def sizes (entries : List (FunctionId × CacheEntry)) : Nat := (entries.map (·.2.code.size)).sum

/-- Sum of the sizes of the entries of all functions but one. -/
def others (c : CodeCache) (id : FunctionId) : Nat := sizes (c.entries.filter (·.1 != id))

/-- Size of the entry that an insert replaces. -/
def replaced (c : CodeCache) (id : FunctionId) : Nat := ((c.entry? id).map (·.code.size)).getD 0

/-- The functions that have an entry, valid or not. -/
def functions (c : CodeCache) : List FunctionId := c.entries.map (·.1)

@[simp] theorem sizes_cons (entry : FunctionId × CacheEntry) :
    sizes (entry :: entries) = entry.2.code.size + sizes entries := rfl

/-- With one entry for each function, the sizes split into that of a function and the others. -/
theorem sizes_split (h : Assoc.Distinct entries) (id : FunctionId) :
    sizes entries =
      sizes (entries.filter (·.1 != id)) +
        ((entries.lookup id).map (·.code.size)).getD 0 := by
  induction entries with
  | nil => rfl
  | cons entry rest ih =>
    obtain ⟨k, e⟩ := entry
    by_cases hk : k = id
    · subst hk
      have hfilter : ((k, e) :: rest).filter (·.1 != k) = rest := by
        simpa using Assoc.filter_ne_eq_self (Assoc.notMem_of_distinct_cons h)
      have hlookup : ((k, e) :: rest).lookup k = some e := List.lookup_cons_self
      rw [hfilter, hlookup, sizes_cons]
      exact Nat.add_comm _ _
    · have hfilter : ((k, e) :: rest).filter (·.1 != id) = (k, e) :: rest.filter (·.1 != id) := by
        simp [hk]
      have hlookup : ((k, e) :: rest).lookup id = rest.lookup id := by
        have hne : (id == k) = false := by simpa using Ne.symm hk
        simp [List.lookup_cons, hne]
      rw [hfilter, hlookup, sizes_cons, sizes_cons, ih h.tail]
      omega

/-! ## The invariant -/

/-- One entry for each function, and a total that is right and within the limit. -/
structure WellKept (c : CodeCache) : Prop where
  distinct : Assoc.Distinct c.entries
  total : c.total = sizes c.entries
  fits : c.total ≤ c.limit

theorem wellKept_empty (limit : Nat) : WellKept { limit } :=
  ⟨List.nodup_nil, rfl, Nat.zero_le _⟩

theorem WellKept.total_split (h : c.WellKept) (id : FunctionId) :
    c.total = c.others id + c.replaced id := by
  rw [h.total]
  exact sizes_split h.distinct id

/-- The cache after an insert that is not refused. -/
def stored (c : CodeCache) (id : FunctionId) (code : CompiledCode) : CodeCache :=
  { c with
    entries := Assoc.put id { code } c.entries
    total := c.others id + code.size }

/-- An insert compares the budget with the entries of the other functions. -/
theorem WellKept.insert_eq (h : c.WellKept) (id : FunctionId) (code : CompiledCode) :
    c.insert id code =
      if c.limit < c.others id + code.size then .error (.cacheFull (c.others id) c.limit)
      else .ok (c.stored id code) := by
  have hcurrent : c.total - c.replaced id = c.others id := by
    have hsplit := h.total_split id
    omega
  rw [← hcurrent, stored, ← hcurrent]
  rfl

theorem WellKept.insert_eq_error_iff (h : c.WellKept) {err : CompileError} :
    c.insert id code = .error err ↔
      c.limit < c.others id + code.size ∧ err = .cacheFull (c.others id) c.limit := by
  rw [h.insert_eq]
  split
  · rename_i hfull
    simp only [Except.error.injEq, hfull, true_and]
    exact eq_comm
  · rename_i hroom
    simp [hroom]

theorem WellKept.insert_eq_ok_iff (h : c.WellKept) :
    c.insert id code = .ok c' ↔
      c.others id + code.size ≤ c.limit ∧ c' = c.stored id code := by
  rw [h.insert_eq]
  split
  · rename_i hfull
    simp [Nat.not_le.2 hfull]
  · rename_i hroom
    simp only [Except.ok.injEq, Nat.not_lt.1 hroom, true_and]
    exact eq_comm

theorem WellKept.stored (h : c.WellKept) (hroom : c.others id + code.size ≤ c.limit) :
    (c.stored id code).WellKept :=
  ⟨h.distinct.put id _, Nat.add_comm _ _, hroom⟩

theorem WellKept.insert (h : c.WellKept) (hinsert : c.insert id code = .ok c') :
    c'.WellKept := by
  obtain ⟨hroom, rfl⟩ := h.insert_eq_ok_iff.1 hinsert
  exact h.stored hroom

theorem entries_insert (hinsert : c.insert id code = .ok c') :
    c'.entries = Assoc.put id { code } c.entries := by
  simp only [CodeCache.insert] at hinsert
  split at hinsert
  · cases hinsert
  · cases hinsert
    rfl

theorem functions_insert (hinsert : c.insert id code = .ok c') :
    k ∈ c'.functions ↔ k = id ∨ k ∈ c.functions := by
  rw [functions, entries_insert hinsert]
  exact Assoc.mem_keys_put

theorem WellKept.count_insert (h : c.WellKept) (hinsert : c.insert id code = .ok c') :
    c'.count = if id ∈ c.functions then c.count else c.count + 1 := by
  rw [count, entries_insert hinsert]
  exact Assoc.length_put h.distinct

theorem functions_invalidate : (c.invalidate id).functions = c.functions := by
  simp only [functions, invalidate, List.map_map]
  refine List.map_congr_left ?_
  intro entry _
  simp only [Function.comp_apply]
  split <;> rfl

theorem sizes_invalidate : sizes (c.invalidate id).entries = sizes c.entries := by
  simp only [sizes, invalidate, List.map_map]
  refine congrArg List.sum (List.map_congr_left ?_)
  intro entry _
  simp only [Function.comp_apply]
  split <;> rfl

theorem WellKept.invalidate (h : c.WellKept) (id : FunctionId) : (c.invalidate id).WellKept := by
  refine ⟨?_, ?_, h.fits⟩
  · rw [Assoc.Distinct, ← functions, functions_invalidate]
    exact h.distinct
  · rw [sizes_invalidate]
    exact h.total

theorem WellKept.clear (c : CodeCache) : c.clear.WellKept :=
  ⟨List.nodup_nil, rfl, Nat.zero_le _⟩

/-! ## The entry of a function -/

theorem entry_insert (hinsert : c.insert id code = .ok c') :
    c'.entry? k = if k = id then some { code } else c.entry? k := by
  rw [ entry?, entries_insert hinsert]
  exact Assoc.lookup_put

theorem entry_invalidate :
    entry? (c.invalidate id) k =
      if k = id then (c.entry? k).map ({ · with valid := false }) else c.entry? k := by
  simp only [ entry?, invalidate]
  induction c.entries with
  | nil => simp
  | cons entry rest ih =>
    obtain ⟨j, e⟩ := entry
    by_cases hkj : k = j
    · subst hkj
      by_cases hk : k = id <;> simp [hk]
    · have hne : (k == j) = false := by simpa using hkj
      by_cases hj : j = id
      · subst hj
        simpa [List.lookup_cons, hne] using ih
      · simpa [List.lookup_cons, hne, hj] using ih

theorem mem_functions_iff : id ∈ c.functions ↔ (c.entry? id).isSome := Assoc.mem_keys_iff

theorem get?_insert (hinsert : c.insert id code = .ok c') :
    c'.get? k = if k = id then some code else c.get? k := by
  rw [get?, entry_insert hinsert]
  by_cases hk : k = id
  · simp [hk]
  · simp only [hk, if_false]
    rfl

theorem contains_insert (hinsert : c.insert id code = .ok c') :
    c'.contains k = (c.contains k || k = id) := by
  rw [contains, get?_insert hinsert, contains]
  by_cases hk : k = id
  · simp [hk]
  · simp [hk]

theorem get?_eq_some_iff : c.get? id = some code ↔ c.entry? id = some { code } := by
  rw [get?]
  cases c.entry? id with
  | none => simp
  | some e =>
    obtain ⟨code', valid⟩ := e
    cases valid <;> simp

end CodeCache

/-! ## Histories -/

/-- An operation on a cache. -/
inductive CacheOp where
  | insert (id : FunctionId) (code : CompiledCode)
  | get (id : FunctionId)
  | contains (id : FunctionId)
  | invalidate (id : FunctionId)
  | clear

/-- What an operation on a cache did, and answered. -/
inductive CacheEvent where
  | inserted (id : FunctionId) (code : CompiledCode)
  | refused (id : FunctionId) (code : CompiledCode) (error : CompileError)
  | got (id : FunctionId) (code : Option CompiledCode)
  | contained (id : FunctionId) (answer : Bool)
  | invalidated (id : FunctionId)
  | cleared

/-- The event decides whether a function has valid code. -/
def CacheEvent.Concerns (id : FunctionId) : CacheEvent → Prop
  | .inserted k _ | .invalidated k => k = id
  | .cleared => True
  | .refused .. | .got .. | .contained .. => False

/-- The functions inserted since the last time the cache was cleared, by events with the newest
first. -/
def CacheEvent.insertedSinceClear : List CacheEvent → List FunctionId
  | [] => []
  | .cleared :: _ => []
  | .inserted id _ :: earlier => id :: insertedSinceClear earlier
  | _ :: earlier => insertedSinceClear earlier

namespace CodeCache

/-- Carry out an operation: the cache afterwards, and what happened. -/
def perform (c : CodeCache) : CacheOp → CodeCache × CacheEvent
  | .insert id code =>
    match c.insert id code with
    | .ok c' => (c', .inserted id code)
    | .error e => (c, .refused id code e)
  | .get id => (c, .got id (c.get? id))
  | .contains id => (c, .contained id (c.contains id))
  | .invalidate id => (c.invalidate id, .invalidated id)
  | .clear => (c.clear, .cleared)

/-- Carry out one more operation and note what happened. -/
def note (h : CodeCache × List CacheEvent) (op : CacheOp) : CodeCache × List CacheEvent :=
  ((h.1.perform op).1, (h.1.perform op).2 :: h.2)

/-- A new cache after a sequence of operations, and what they did, the newest first. -/
def history (limit : Nat) (ops : List CacheOp) : CodeCache × List CacheEvent :=
  ops.foldl note ({ limit }, [])

/-- The entry that a function has by the events alone. -/
def entryOf (id : FunctionId) : List CacheEvent → Option CacheEntry
  | [] => none
  | .cleared :: _ => none
  | .inserted k code :: earlier => if id = k then some { code } else entryOf id earlier
  | .invalidated k :: earlier =>
    if id = k then (entryOf id earlier).map ({ · with valid := false }) else entryOf id earlier
  | _ :: earlier => entryOf id earlier

/-- A cache that is well kept, has the given limit, and has the entries that events tell of. -/
structure Tracks (limit : Nat) (c : CodeCache) (events : List CacheEvent) : Prop where
  wellKept : c.WellKept
  limit : c.limit = limit
  entry : ∀ id, c.entry? id = entryOf id events

variable {limit : Nat} {c : CodeCache} {events : List CacheEvent} {id : FunctionId}
  {code : CompiledCode}

/-- Every operation keeps the cache in step with its events. -/
theorem Tracks.perform (h : Tracks limit c events) (op : CacheOp) :
    Tracks limit (c.perform op).1 ((c.perform op).2 :: events) := by
  cases op with
  | insert id code =>
    rw [CodeCache.perform]
    cases hinsert : c.insert id code with
    | error err => exact ⟨h.wellKept, h.limit, h.entry⟩
    | ok c' =>
      refine ⟨h.wellKept.insert hinsert, ?_, ?_⟩
      · obtain ⟨_, rfl⟩ := h.wellKept.insert_eq_ok_iff.1 hinsert
        exact h.limit
      · intro k
        rw [entry_insert hinsert, h.entry k]
        rfl
  | get id => exact ⟨h.wellKept, h.limit, h.entry⟩
  | contains id => exact ⟨h.wellKept, h.limit, h.entry⟩
  | invalidate id =>
    refine ⟨h.wellKept.invalidate id, h.limit, ?_⟩
    intro k
    show entry? (c.invalidate id) k = _
    rw [entry_invalidate, h.entry k]
    rfl
  | clear => exact ⟨WellKept.clear c, h.limit, fun _ => rfl⟩

/-- So does every sequence of operations. -/
theorem tracks_history (limit : Nat) (ops : List CacheOp) :
    Tracks limit (history limit ops).1 (history limit ops).2 := by
  have hrun : ∀ (ops : List CacheOp) (h : CodeCache × List CacheEvent), Tracks limit h.1 h.2 →
      Tracks limit (ops.foldl note h).1 (ops.foldl note h).2 := by
    intro ops
    induction ops with
    | nil =>
      intro h htracks
      exact htracks
    | cons op rest ih =>
      intro h htracks
      exact ih (note h op) (htracks.perform op)
  exact hrun ops _ ⟨wellKept_empty limit, rfl, fun _ => rfl⟩

/-! ## What the events say -/

/-- By the events, a function has valid code if it was inserted and nothing that concerns it
happened since. -/
theorem entryOf_eq_valid_iff :
    entryOf id events = some { code } ↔
      ∃ later earlier, events = later ++ .inserted id code :: earlier ∧
        ∀ event ∈ later, ¬ event.Concerns id := by
  induction events with
  | nil => simp [entryOf]
  | cons event earlier ih =>
    -- An event that does not concern the function only makes the later part longer.
    have hskip : ¬ event.Concerns id →
        ((∃ later rest, earlier = later ++ .inserted id code :: rest ∧
            ∀ event ∈ later, ¬ event.Concerns id) ↔
          ∃ later rest, event :: earlier = later ++ .inserted id code :: rest ∧
            ∀ event ∈ later, ¬ event.Concerns id) := by
      intro hevent
      constructor
      · rintro ⟨later, rest, rfl, hlater⟩
        refine ⟨event :: later, rest, rfl, ?_⟩
        intro other hother
        rcases List.mem_cons.1 hother with rfl | hother
        · exact hevent
        · exact hlater other hother
      · rintro ⟨later, rest, heq, hlater⟩
        cases later with
        | nil =>
          cases heq
          exact absurd rfl hevent
        | cons first later =>
          cases heq
          exact ⟨later, rest, rfl, fun other hother => hlater other (.tail _ hother)⟩
    -- One that does concern it decides, so it has to be the insertion itself.
    have hdecides : event.Concerns id →
        ((∃ later rest, event :: earlier = later ++ .inserted id code :: rest ∧
            ∀ event ∈ later, ¬ event.Concerns id) ↔ event = .inserted id code) := by
      intro hevent
      constructor
      · rintro ⟨later, rest, heq, hlater⟩
        cases later with
        | nil =>
          cases heq
          rfl
        | cons first later =>
          cases heq
          exact absurd hevent (hlater _ (.head _))
      · rintro rfl
        exact ⟨[], earlier, rfl, fun _ hother => nomatch hother⟩
    cases event with
    | inserted k code' =>
      by_cases hk : id = k
      · subst hk
        rw [hdecides rfl]
        simp [entryOf]
      · rw [← hskip (Ne.symm hk), ← ih]
        simp [entryOf, hk]
    | invalidated k =>
      by_cases hk : id = k
      · subst hk
        rw [hdecides rfl]
        simp [entryOf]
      · rw [← hskip (Ne.symm hk), ← ih]
        simp [entryOf, hk]
    | cleared =>
      rw [hdecides trivial]
      simp [entryOf]
    | refused k code' error | got k answer | contained k answer =>
      rw [← hskip not_false, ← ih]
      rfl

/-- By the events, a function has an entry, valid or not, if it was inserted since the cache was
last cleared. -/
theorem entryOf_isSome_iff :
    (entryOf id events).isSome ↔ id ∈ CacheEvent.insertedSinceClear events := by
  induction events with
  | nil => simp [entryOf, CacheEvent.insertedSinceClear]
  | cons event earlier ih =>
    cases event with
    | inserted k code =>
      by_cases hk : id = k
      · simp [entryOf, CacheEvent.insertedSinceClear, hk]
      · simp [entryOf, CacheEvent.insertedSinceClear, hk, ih]
    | invalidated k =>
      by_cases hk : id = k
      · subst hk
        simpa [entryOf, CacheEvent.insertedSinceClear] using ih
      · simp [entryOf, CacheEvent.insertedSinceClear, hk, ih]
    | cleared => simp [entryOf, CacheEvent.insertedSinceClear]
    | refused k code error | got k answer | contained k answer => exact ih

/-! ## The contract -/

/-- What a cache with a limit promises after the given events. -/
structure Refines (limit : Nat) (c : CodeCache) (events : List CacheEvent) : Prop where
  /-- The total is the sum of the sizes of all entries, and within the limit. -/
  total : c.total = (c.entries.map (·.2.code.size)).sum ∧ c.total ≤ limit
  /-- What an insert takes off the total is part of it. -/
  noUnderflow : ∀ id, ((c.entry? id).map (·.code.size)).getD 0 ≤ c.total
  /-- An insert is refused if the entries of the other functions leave no room.  The error tells
  the sum of those entries, and the cache stays as it is. -/
  refused : ∀ id code,
    limit < ((c.entries.filter (·.1 != id)).map (·.2.code.size)).sum + code.size →
    c.perform (.insert id code) =
      (c, .refused id code
        (.cacheFull ((c.entries.filter (·.1 != id)).map (·.2.code.size)).sum limit))
  /-- Otherwise the code is inserted. -/
  inserted : ∀ id code,
    ((c.entries.filter (·.1 != id)).map (·.2.code.size)).sum + code.size ≤ limit →
    ∃ c', c.insert id code = .ok c' ∧ c.perform (.insert id code) = (c', .inserted id code)
  /-- A function has the code that was inserted last, unless it was invalidated or the cache
  cleared since. -/
  get : ∀ id code, c.get? id = some code ↔
    ∃ later earlier, events = later ++ .inserted id code :: earlier ∧
      ∀ event ∈ later, ¬ event.Concerns id
  contains : ∀ id, c.contains id = (c.get? id).isSome
  /-- There are as many entries as functions inserted since the cache was last cleared. -/
  count : c.count = (CacheEvent.insertedSinceClear events).dedup.length

/-- A cache that keeps track of its events keeps its promises. -/
theorem Tracks.refines (h : Tracks limit c events) : Refines limit c events where
  total := by
    refine ⟨h.wellKept.total, ?_⟩
    rw [← h.limit]
    exact h.wellKept.fits
  noUnderflow id := by
    have hsplit := h.wellKept.total_split id
    show c.replaced id ≤ c.total
    omega
  refused id code hfull := by
    change limit < c.others id + code.size at hfull
    rw [← h.limit] at hfull
    have hinsert := h.wellKept.insert_eq_error_iff.2 ⟨hfull, rfl⟩
    rw [CodeCache.perform, hinsert, h.limit]
    rfl
  inserted id code hroom := by
    change c.others id + code.size ≤ limit at hroom
    rw [← h.limit] at hroom
    have hinsert := h.wellKept.insert_eq_ok_iff.2 ⟨hroom, rfl⟩
    refine ⟨_, hinsert, ?_⟩
    rw [CodeCache.perform, hinsert]
  get id code := by
    rw [get?_eq_some_iff, h.entry]
    exact entryOf_eq_valid_iff
  contains id := rfl
  count := by
    have hperm : c.functions.Perm (CacheEvent.insertedSinceClear events).dedup := by
      refine (List.perm_ext_iff_of_nodup h.wellKept.distinct (List.nodup_dedup _)).2 ?_
      intro id
      rw [← functions, mem_functions_iff, h.entry, entryOf_isSome_iff, List.mem_dedup]
    rw [← hperm.length_eq, functions, List.length_map]
    rfl

end CodeCache

/-- Whatever its limit, and whatever was inserted, looked up, invalidated and cleared before, a
cache is a map from functions to code within a budget. -/
theorem cache_refines_history (limit : Nat) (ops : List CacheOp) :
    CodeCache.Refines limit (CodeCache.history limit ops).1 (CodeCache.history limit ops).2 :=
  (CodeCache.tracks_history limit ops).refines

end TierVm
