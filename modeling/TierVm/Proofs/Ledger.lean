import Mathlib.Data.List.Dedup
import Mathlib.Data.List.Infix
import TierVm.Proofs.Associations
import TierVm.Tier.Engine

/-!
# Who holds the code memory

The engines count the holders of the code memory, and how often it was created.  A ledger tells
more: it names the holders, and says which of the memories created so far each of them holds.  It
follows the rules of shared ownership.  Whoever asks for the code memory gets the one created last,
if somebody still holds it, and a new one otherwise; whoever comes by it through another holder
gets the memory of that holder; and a memory is alive while somebody holds it.

* `TierEvent` is what can happen to engines, to functions and to holders.  A log is a list of
  events, the newest first, and `Ledger.of` the ledger that it leads to.
* `Ledger.wellFormed_of` is the invariant of all ledgers, whatever the log: every holder holds the
  memory created last.  At most one is alive, then (`live_eq`), and each was created by an
  acquisition that found none alive (`created_by`).
* `memory?_append`: a holder keeps its memory until it is dropped.
* `Ledger.summary` is what the counters of `CodeMemory` should be, and `summary_acquired`,
  `summary_shared` and `summary_release` say that its operations agree with the ledger.
-/

namespace TierVm

/-- Someone who holds the code memory. -/
inductive Holder where
  /-- Somebody who asked for the code memory and goes by a number. -/
  | direct (k : Nat)
  /-- Code that somebody keeps under a number, apart from all caches. -/
  | code (k : Nat)
  | engine (e : Nat)
  /-- An entry of an engine's cache. -/
  | entry (e : Nat) (id : FunctionId)
  deriving DecidableEq, Repr

namespace Holder

/-- A holder that is neither an engine nor part of one. -/
def Outside : Holder → Prop
  | .direct _ | .code _ => True
  | .engine _ | .entry .. => False

/-- An entry of the cache of an engine. -/
def isEntryOf (e : Nat) : Holder → Bool
  | .entry e' _ => e' = e
  | _ => false

/-- An engine or an entry of its cache. -/
def belongsTo (e : Nat) : Holder → Bool
  | .engine e' | .entry e' _ => e' = e
  | _ => false

end Holder

/-- What happens to engines, functions and holders of the code memory. -/
inductive TierEvent where
  /-- Somebody asks for the code memory.  If it has to be created, it is at this level. -/
  | acquired (h : Holder) (level : OptLevel)
  /-- A holder comes about through another one, and shares its memory. -/
  | shared (h source : Holder)
  | dropped (h : Holder)
  /-- The entries of an engine's cache are dropped. -/
  | cleared (e : Nat)
  /-- The last handle of an engine is dropped, and with it all that belongs to the engine. -/
  | ended (e : Nat)
  /-- A function that is called has become hot, and its compilation starts. -/
  | started (e : Nat) (id : FunctionId)
  /-- An engine that has no code for a function turns to the code memory to compile it. -/
  | attempted (e : Nat) (id : FunctionId)
  /-- Compiling a function ended with code. -/
  | compiled (e : Nat) (id : FunctionId)
  /-- Compiling a function failed. -/
  | failed (e : Nat) (id : FunctionId)
  | invalidated (e : Nat) (id : FunctionId)

namespace TierEvent

/-- Somebody asks for the code memory. -/
def acquires : TierEvent → Bool
  | .acquired .. => true
  | _ => false

@[simp] theorem acquires_started (e : Nat) (id : FunctionId) :
    (started e id).acquires = false := rfl

@[simp] theorem acquires_compiled (e : Nat) (id : FunctionId) :
    (compiled e id).acquires = false := rfl

@[simp] theorem acquires_failed (e : Nat) (id : FunctionId) :
    (failed e id).acquires = false := rfl

/-- An event that does not concern the holders of the code memory. -/
def silent : TierEvent → Bool
  | .started .. | .compiled .. | .failed .. | .invalidated .. => true
  | _ => false

/-- A holder lets go of its memory. -/
def Drops (h : Holder) : TierEvent → Prop
  | .dropped h' => h = h'
  | .cleared e => h.isEntryOf e
  | .ended e => h.belongsTo e
  | _ => False

end TierEvent

/-- The holders of code memories, and the memories created so far. -/
structure Ledger where
  /-- Holders, each with the number of its memory.  Memories are numbered from 1 on. -/
  held : List (Holder × Nat) := []
  /-- The levels at which memories were created, the newest first. -/
  levels : List OptLevel := []

namespace Ledger

variable {l : Ledger} {h j source : Holder} {level : OptLevel} {n : Nat} {event : TierEvent}

/-- Number of memories created so far. -/
def created (l : Ledger) : Nat := l.levels.length

/-- The memory of a holder. -/
def memory? (l : Ledger) (h : Holder) : Option Nat := l.held.lookup h

/-- Whether somebody is a holder. -/
def Holds (l : Ledger) (h : Holder) : Prop := h ∈ l.held.map (·.1)

/-- Number of different memories that are held. -/
def live (l : Ledger) : Nat := (l.held.map (·.2)).dedup.length

/-- Let somebody hold a memory. -/
def hold (l : Ledger) (h : Holder) (n : Nat) : Ledger := { l with held := Assoc.put h n l.held }

/-- Let some holders go. -/
def release (l : Ledger) (who : Holder → Bool) : Ledger :=
  { l with held := l.held.filter fun x => !who x.1 }

/-- The ledger after an event. -/
def apply (l : Ledger) : TierEvent → Ledger
  | .acquired h level =>
    -- The memory created last can be had as long as it is held.
    if l.held.any (·.2 = l.created) then l.hold h l.created
    else { l with levels := level :: l.levels }.hold h (l.created + 1)
  | .shared h source =>
    match l.memory? source with
    | some n => l.hold h n
    | none => l
  | .dropped h => l.release (· = h)
  | .cleared e => l.release (·.isEntryOf e)
  | .ended e => l.release (·.belongsTo e)
  | _ => l

/-- The ledger that a log leads to. -/
def of : List TierEvent → Ledger
  | [] => {}
  | event :: earlier => (of earlier).apply event

/-! ## One memory -/

/-- Nobody holds twice, and all hold the memory created last, which has been created. -/
structure WellFormed (l : Ledger) : Prop where
  distinct : Assoc.Distinct l.held
  latest : ∀ x ∈ l.held, x.2 = l.created
  levels_ne_nil : l.held ≠ [] → l.levels ≠ []

theorem WellFormed.latest_held_iff (hl : l.WellFormed) :
    l.held.any (·.2 = l.created) = true ↔ l.held ≠ [] := by
  rw [List.any_eq_true]
  constructor
  · rintro ⟨x, hx, _⟩ hnil
    rw [hnil] at hx
    cases hx
  · intro hne
    obtain ⟨x, hx⟩ := List.exists_mem_of_ne_nil _ hne
    exact ⟨x, hx, decide_eq_true (hl.latest x hx)⟩

theorem held_ne_nil (hn : l.memory? h = some n) : l.held ≠ [] := by
  intro hnil
  rw [memory?, hnil] at hn
  cases hn

theorem WellFormed.memory?_eq (hl : l.WellFormed) (hn : l.memory? h = some n) : n = l.created := by
  obtain ⟨before, after, hheld, _⟩ := List.lookup_eq_some_iff.1 hn
  refine hl.latest (h, n) ?_
  rw [hheld]
  simp

theorem WellFormed.hold (hl : l.WellFormed) (hne : l.held ≠ []) (h : Holder) :
    (l.hold h l.created).WellFormed := by
  refine ⟨hl.distinct.put h _, ?_, fun _ => hl.levels_ne_nil hne⟩
  intro x hx
  rcases List.mem_cons.1 hx with rfl | hx
  · rfl
  · exact hl.latest x (List.mem_filter.1 hx).1

theorem WellFormed.release (hl : l.WellFormed) (who : Holder → Bool) :
    (l.release who).WellFormed := by
  refine ⟨hl.distinct.filter _, fun x hx => hl.latest x (List.mem_filter.1 hx).1, ?_⟩
  intro hne
  refine hl.levels_ne_nil ?_
  intro hnil
  exact hne (by rw [Ledger.release, hnil]; rfl)

/-- An acquisition creates a memory if nobody holds one, and shares the one that is held
otherwise. -/
theorem WellFormed.apply_acquired (hl : l.WellFormed) :
    l.apply (.acquired h level) =
      if l.held = [] then { held := [(h, l.created + 1)], levels := level :: l.levels }
      else l.hold h l.created := by
  rw [apply]
  by_cases hnil : l.held = []
  · simp only [hnil, if_true, Ledger.hold, Assoc.put, List.filter_nil]
    rfl
  · have hsome := hl.latest_held_iff.2 hnil
    simp only [hsome, hnil, if_true, if_false]

theorem WellFormed.apply (hl : l.WellFormed) (event : TierEvent) : (l.apply event).WellFormed := by
  cases event with
  | acquired h level =>
    rw [hl.apply_acquired]
    split
    · exact ⟨List.nodup_singleton _, by simp [created], fun _ => List.cons_ne_nil _ _⟩
    · rename_i hne
      exact hl.hold hne h
  | shared h source =>
    rw [Ledger.apply]
    cases hn : l.memory? source with
    | none => exact hl
    | some n =>
      cases hl.memory?_eq hn
      exact hl.hold (held_ne_nil hn) h
  | dropped h => exact hl.release (· = h)
  | cleared e => exact hl.release (·.isEntryOf e)
  | ended e => exact hl.release (·.belongsTo e)
  | started | attempted | compiled | failed | invalidated => exact hl

/-- Whatever the log, all holders share the memory created last. -/
theorem wellFormed_of (log : List TierEvent) : (of log).WellFormed := by
  induction log with
  | nil => exact ⟨List.nodup_nil, fun _ hx => (nomatch hx), fun hne => absurd rfl hne⟩
  | cons event earlier ih => exact ih.apply event

/-- One memory is alive while there are holders, and none otherwise. -/
theorem WellFormed.live_eq (hl : l.WellFormed) : l.live = if l.held = [] then 0 else 1 := by
  rw [live]
  split
  · rename_i hnil
    simp [hnil]
  · rename_i hne
    obtain ⟨x, hx⟩ := List.exists_mem_of_ne_nil _ hne
    have hperm : (l.held.map (·.2)).dedup.Perm [l.created] := by
      refine (List.perm_ext_iff_of_nodup (List.nodup_dedup _) (List.nodup_singleton _)).2 ?_
      intro n
      rw [List.mem_dedup, List.mem_singleton, List.mem_map]
      constructor
      · rintro ⟨y, hy, rfl⟩
        exact hl.latest y hy
      · rintro rfl
        exact ⟨x, hx, hl.latest x hx⟩
    exact hperm.length_eq

theorem WellFormed.live_eq_zero_iff (hl : l.WellFormed) : l.live = 0 ↔ l.held = [] := by
  rw [hl.live_eq]
  split
  · simpa
  · simpa

/-- The level of a memory was asked for by an acquisition that found none alive. -/
theorem created_by {log : List TierEvent} {rest : List OptLevel}
    (h : (of log).levels = level :: rest) :
    ∃ later holder earlier, log = later ++ .acquired holder level :: earlier ∧
      (of earlier).live = 0 ∧ (of earlier).levels = rest := by
  induction log with
  | nil => cases h
  | cons event earlier ih =>
    have hl := wellFormed_of earlier
    -- Any event but a creation leaves the levels, so the creation is further back.
    have hback : ((of earlier).apply event).levels = (of earlier).levels →
        ∃ later holder before, event :: earlier = later ++ .acquired holder level :: before ∧
          (of before).live = 0 ∧ (of before).levels = rest := by
      intro hlevels
      obtain ⟨later, holder, before, rfl, hlive, hrest⟩ := ih (hlevels.symm.trans h)
      exact ⟨event :: later, holder, before, rfl, hlive, hrest⟩
    cases event with
    | acquired holder level' =>
      by_cases hnil : (of earlier).held = []
      · rw [of, hl.apply_acquired, if_pos hnil] at h
        cases h
        exact ⟨[], holder, earlier, rfl, hl.live_eq_zero_iff.2 hnil, rfl⟩
      · refine hback ?_
        rw [hl.apply_acquired, if_neg hnil]
        rfl
    | shared holder source =>
      refine hback ?_
      rw [Ledger.apply]
      cases (of earlier).memory? source <;> rfl
    | dropped | cleared | ended | started | attempted | compiled | failed | invalidated =>
      exact hback rfl

/-! ## Holders -/

theorem holds_hold : (l.hold h n).Holds j ↔ j = h ∨ l.Holds j := Assoc.mem_keys_put

theorem holds_release {who : Holder → Bool} : (l.release who).Holds j ↔ l.Holds j ∧ ¬ who j := by
  simp only [Holds, release, List.mem_map, List.mem_filter]
  constructor
  · rintro ⟨x, ⟨hx, hwho⟩, rfl⟩
    exact ⟨⟨x, hx, rfl⟩, by simpa using hwho⟩
  · rintro ⟨⟨x, hx, rfl⟩, hwho⟩
    exact ⟨x, ⟨hx, by simpa using hwho⟩, rfl⟩

theorem exists_holds_iff : (∃ h, l.Holds h) ↔ l.held ≠ [] := by
  constructor
  · rintro ⟨h, hheld⟩ hnil
    rw [Holds, hnil] at hheld
    cases hheld
  · intro hne
    obtain ⟨x, hx⟩ := List.exists_mem_of_ne_nil _ hne
    exact ⟨x.1, List.mem_map.2 ⟨x, hx, rfl⟩⟩

theorem holds_iff : l.Holds h ↔ ∃ n, l.memory? h = some n := by
  rw [Holds, Assoc.mem_keys_iff, Option.isSome_iff_exists]
  rfl

theorem WellFormed.holds_acquired (hl : l.WellFormed) :
    (l.apply (.acquired h level)).Holds j ↔ j = h ∨ l.Holds j := by
  rw [hl.apply_acquired]
  split
  · rename_i hnil
    simp [Holds, hnil]
  · exact holds_hold

theorem holds_shared (hsource : l.Holds source) :
    (l.apply (.shared h source)).Holds j ↔ j = h ∨ l.Holds j := by
  obtain ⟨n, hn⟩ := holds_iff.1 hsource
  rw [apply, hn]
  exact holds_hold

theorem memory?_release {who : Holder → Bool} (hwho : ¬ who h) :
    (l.release who).memory? h = l.memory? h := by
  simp only [memory?, release]
  induction l.held with
  | nil => rfl
  | cons x rest ih =>
    obtain ⟨j, n⟩ := x
    by_cases hj : h = j
    · subst hj
      simp [hwho]
    · have hne : (h == j) = false := by simpa using hj
      cases hwhoj : who j <;> simpa [List.lookup_cons, hne, hwhoj] using ih

/-- A holder keeps its memory at every event that does not drop it. -/
theorem WellFormed.memory?_apply (hl : l.WellFormed) (hn : l.memory? h = some n)
    (hkept : ¬ event.Drops h) : (l.apply event).memory? h = some n := by
  -- Somebody else, or the same holder once more, comes to hold the one memory there is.
  have hhold : ∀ j, (l.hold j l.created).memory? h = some n := by
    intro j
    rw [Ledger.hold, memory?, Assoc.lookup_put]
    split
    · rw [hl.memory?_eq hn]
    · exact hn
  cases event with
  | acquired j level =>
    rw [hl.apply_acquired, if_neg (held_ne_nil hn)]
    exact hhold j
  | shared j source =>
    rw [Ledger.apply]
    cases hsource : l.memory? source with
    | none => exact hn
    | some m =>
      cases hl.memory?_eq hsource
      exact hhold j
  | dropped j =>
    have hne : ¬ h = j := hkept
    exact (memory?_release (by simpa using hne)).trans hn
  | cleared e => exact (memory?_release hkept).trans hn
  | ended e => exact (memory?_release hkept).trans hn
  | started | attempted | compiled | failed | invalidated => exact hn

/-- A holder keeps its memory until it is dropped. -/
theorem memory?_append {log events : List TierEvent} (hn : (of log).memory? h = some n)
    (hkept : ∀ event ∈ events, ¬ event.Drops h) : (of (events ++ log)).memory? h = some n := by
  induction events with
  | nil => exact hn
  | cons event earlier ih =>
    have hearlier := ih fun other hother => hkept other (.tail _ hother)
    exact (wellFormed_of _).memory?_apply hearlier (hkept event (.head _))

/-- Events only add to the memories created. -/
theorem levels_suffix_append (log events : List TierEvent) :
    (of log).levels <:+ (of (events ++ log)).levels := by
  induction events with
  | nil => exact List.suffix_rfl
  | cons event earlier ih =>
    refine ih.trans ?_
    show _ <:+ ((of (earlier ++ log)).apply event).levels
    cases event with
    | acquired h level =>
      rw [(wellFormed_of _).apply_acquired]
      split
      · exact List.suffix_cons _ _
      · exact List.suffix_rfl
    | shared h source =>
      rw [apply]
      cases (of (earlier ++ log)).memory? source <;> exact List.suffix_rfl
    | dropped | cleared | ended | started | attempted | compiled | failed | invalidated =>
      exact List.suffix_rfl

/-! ## The counters -/

/-- What the counters of the code memory should be. -/
def summary (l : Ledger) : CodeMemory where
  holders := l.held.length
  created := l.created
  level := l.levels.headD .speed

theorem summary_live (l : Ledger) : l.summary.live = if l.held = [] then 0 else 1 := by
  simp [CodeMemory.live, summary]

theorem WellFormed.summary_acquired (hl : l.WellFormed) (hfresh : ¬ l.Holds h) :
    (l.apply (.acquired h level)).summary = l.summary.acquire level := by
  rw [hl.apply_acquired]
  by_cases hnil : l.held = []
  · simp [hnil, summary, CodeMemory.acquire, created]
  · have hlength : (Assoc.put h l.created l.held).length = l.held.length + 1 := by
      rw [Assoc.length_put hl.distinct]
      exact if_neg hfresh
    have hpos : l.held.length ≠ 0 := by simpa using hnil
    simp only [hnil, if_false, summary, CodeMemory.acquire, hpos, Ledger.hold, hlength]
    rfl

theorem WellFormed.summary_shared (hl : l.WellFormed) (hsource : l.Holds source)
    (hfresh : ¬ l.Holds h) : (l.apply (.shared h source)).summary = l.summary.retain 1 := by
  obtain ⟨n, hn⟩ := holds_iff.1 hsource
  have hlength : (Assoc.put h n l.held).length = l.held.length + 1 := by
    rw [Assoc.length_put hl.distinct]
    exact if_neg hfresh
  simp only [Ledger.apply, hn, summary, Ledger.hold, hlength]
  rfl

/-- Somebody who holds already is no further holder. -/
theorem WellFormed.summary_shared_again (hl : l.WellFormed) (hsource : l.Holds source)
    (hheld : l.Holds h) : (l.apply (.shared h source)).summary = l.summary := by
  obtain ⟨n, hn⟩ := holds_iff.1 hsource
  have hlength : (Assoc.put h n l.held).length = l.held.length := by
    rw [Assoc.length_put hl.distinct]
    exact if_pos hheld
  simp only [Ledger.apply, hn, summary, Ledger.hold, hlength]
  rfl

theorem summary_release (who : Holder → Bool) :
    (l.release who).summary = l.summary.release (l.held.countP fun x => who x.1) := by
  have hsplit := List.length_eq_countP_add_countP (fun x => who x.1) (l := l.held)
  have hlength : (l.held.filter fun x => !who x.1).length =
      l.held.length - l.held.countP fun x => who x.1 := by
    rw [← List.countP_eq_length_filter]
    simp only [Bool.decide_eq_false, Bool.not_eq_true] at hsplit
    omega
  simp only [summary, release, hlength]
  rfl

/-- The holders of a kind are counted by any list that names each of them once. -/
theorem WellFormed.countP_eq (hl : l.WellFormed) (who : Holder → Bool) {names : List Holder}
    (hnames : names.Nodup) (hmem : ∀ h, h ∈ names ↔ l.Holds h ∧ who h) :
    (l.held.countP fun x => who x.1) = names.length := by
  have hkeys : (l.held.map (·.1)).Nodup := hl.distinct
  have hperm : ((l.held.map (·.1)).filter who).Perm names := by
    refine (List.perm_ext_iff_of_nodup (hkeys.filter who) hnames).2 ?_
    intro h
    rw [List.mem_filter, hmem]
    rfl
  rw [← hperm.length_eq, ← List.countP_eq_length_filter, List.countP_map]
  rfl

end Ledger

end TierVm
