import TierVm.Proofs.CacheHistory
import TierVm.Proofs.EngineProcess

/-!
# The life of the code memory

Engines, entries of their caches and code that is kept elsewhere all hold the code memory.  They
come and go in any order, and the state of the engines only counts them.  This module proves that
the count is right in every state of a process: the memory is there as long as somebody holds it,
and no longer.

* `SameFor` says that two logs agree on an engine, and `Engine.Booked` that an engine is as a log
  says.
* `Tier.Accounts` is the invariant: the counters of the code memory are the summary of the ledger,
  and every engine is booked.  There is one lemma for each operation, `Accounts.step` collects
  them, and `accounts_of_process` is the induction.
* `createdBy_of_step` says when a memory is created.
* `code_memory_lifetime` is what follows for the holders of the code memory, over all processes
  and at every moment of a call.
-/

namespace TierVm

variable {p : Program} {log events : List TierEvent} {k e : Nat} {h j source : Holder}
  {level : OptLevel} {engine : Engine}

/-- Holders that come and holders that go. -/
theorem CodeMemory.release_retain (m : CodeMemory) {n k : Nat} (h : k ≤ n) :
    (m.retain n).release k = m.retain (n - k) := by
  simp only [retain, release, Nat.add_sub_assoc h]

/-! ## What a log says about an engine -/

/-- Two logs say the same about an engine: what of it holds the code memory, and what it has
attempted. -/
structure SameFor (k : Nat) (log log' : List TierEvent) : Prop where
  holds : ∀ h : Holder, h.belongsTo k → ((Ledger.of log').Holds h ↔ (Ledger.of log).Holds h)
  attempted : ∀ id, TierEvent.attempted k id ∈ log' ↔ TierEvent.attempted k id ∈ log

namespace SameFor

theorem refl : SameFor k log log := ⟨fun _ _ => Iff.rfl, fun _ => Iff.rfl⟩

theorem trans {log₁ log₂ log₃ : List TierEvent} (h₁ : SameFor k log₁ log₂)
    (h₂ : SameFor k log₂ log₃) : SameFor k log₁ log₃ :=
  ⟨fun h hk => (h₂.holds h hk).trans (h₁.holds h hk),
    fun id => (h₂.attempted id).trans (h₁.attempted id)⟩

/-- An event that does not concern holders. -/
theorem silent {event : TierEvent} (hledger : (Ledger.of log).apply event = Ledger.of log)
    (hevent : ∀ id, event ≠ .attempted k id) : SameFor k log (event :: log) := by
  refine ⟨fun h _ => ?_, fun id => ?_⟩
  · rw [Ledger.of, hledger]
  · simp [Ne.symm (hevent id)]

/-- Somebody else comes to hold the code memory. -/
theorem acquired (hj : ¬ j.belongsTo k) : SameFor k log (.acquired j level :: log) := by
  refine ⟨fun h hk => ?_, fun id => by simp⟩
  rw [Ledger.of, (Ledger.wellFormed_of log).holds_acquired]
  constructor
  · rintro (rfl | hheld)
    · exact absurd hk hj
    · exact hheld
  · exact .inr

theorem shared (hsource : (Ledger.of log).Holds source) (hj : ¬ j.belongsTo k) :
    SameFor k log (.shared j source :: log) := by
  refine ⟨fun h hk => ?_, fun id => by simp⟩
  rw [Ledger.of, Ledger.holds_shared hsource]
  constructor
  · rintro (rfl | hheld)
    · exact absurd hk hj
    · exact hheld
  · exact .inr

/-- Somebody else lets go. -/
theorem released {event : TierEvent} (who : Holder → Bool)
    (hledger : (Ledger.of log).apply event = (Ledger.of log).release who)
    (hwho : ∀ h : Holder, h.belongsTo k → ¬ who h) (hevent : ∀ id, event ≠ .attempted k id) :
    SameFor k log (event :: log) := by
  refine ⟨fun h hk => ?_, fun id => ?_⟩
  · rw [Ledger.of, hledger, Ledger.holds_release]
    exact ⟨And.left, fun hheld => ⟨hheld, hwho h hk⟩⟩
  · simp [Ne.symm (hevent id)]

/-- What is not said of an engine is not said of it afterwards. -/
theorem absent {log' : List TierEvent} (hsame : SameFor k log log')
    (habsent : (∀ h : Holder, h.belongsTo k → ¬ (Ledger.of log).Holds h) ∧
      ∀ id, TierEvent.attempted k id ∉ log) :
    (∀ h : Holder, h.belongsTo k → ¬ (Ledger.of log').Holds h) ∧
      ∀ id, TierEvent.attempted k id ∉ log' := by
  refine ⟨?_, ?_⟩
  · intro h hh
    rw [hsame.holds h hh]
    exact habsent.1 h hh
  · intro id
    rw [hsame.attempted id]
    exact habsent.2 id

end SameFor

/-- An engine is as the log says. -/
structure Engine.Booked (engine : Engine) (e : Nat) (log : List TierEvent) : Prop where
  cache : engine.cache.WellKept
  holds : (Ledger.of log).Holds (.engine e) ↔ engine.acquired = true
  entries : ∀ id, (Ledger.of log).Holds (.entry e id) ↔ id ∈ engine.cache.functions
  /-- Code comes from the code memory. -/
  acquired : engine.cache.functions ≠ [] → engine.acquired = true
  attempted : engine.acquired = true ↔ 0 < engine.handles ∧ ∃ id, .attempted e id ∈ log

theorem Engine.Booked.congr {log' : List TierEvent} (hbooked : engine.Booked e log)
    (hsame : SameFor e log log') : engine.Booked e log' where
  cache := hbooked.cache
  holds := (hsame.holds _ (by simp [Holder.belongsTo])).trans hbooked.holds
  entries id := (hsame.holds _ (by simp [Holder.belongsTo])).trans (hbooked.entries id)
  acquired := hbooked.acquired
  attempted := by
    simp only [hsame.attempted]
    exact hbooked.attempted

/-- The counters of the code memory and the engines are as the log says. -/
structure Tier.Accounts (t : Tier) (log : List TierEvent) : Prop where
  memory : t.codeMemory = (Ledger.of log).summary
  engines : ∀ (e : Nat) (engine : Engine), t.engines[e]? = some engine → engine.Booked e log
  /-- Nothing is said of engines that do not exist. -/
  absent : ∀ e : Nat, t.engines[e]? = none →
    (∀ h : Holder, h.belongsTo e → ¬ (Ledger.of log).Holds h) ∧ ∀ id, .attempted e id ∉ log

namespace Tier

variable {t t' : Tier} {id : FunctionId} {s : Script} {c : Counters}

/-! ## One operation -/

/-- The books stay right if the memory and one engine change as the log says. -/
theorem Accounts.change {log' : List TierEvent} {engine' : Engine} (hbooks : t.Accounts log)
    (hmemory : t'.codeMemory = (Ledger.of log').summary)
    (hengines : ∀ k, t'.engines[k]? = if k = e then some engine' else t.engines[k]?)
    (hothers : ∀ k, k ≠ e → SameFor k log log') (hbooked : engine'.Booked e log') :
    t'.Accounts log' := by
  refine ⟨hmemory, ?_, ?_⟩
  · intro k other hother
    rw [hengines] at hother
    by_cases hk : k = e
    · subst hk
      rw [if_pos rfl] at hother
      cases hother
      exact hbooked
    · rw [if_neg hk] at hother
      exact (hbooks.engines k other hother).congr (hothers k hk)
  · intro k hnone
    rw [hengines] at hnone
    by_cases hk : k = e
    · rw [if_pos hk] at hnone
      cases hnone
    · rw [if_neg hk] at hnone
      exact (hothers k hk).absent (hbooks.absent k hnone)

/-- The books stay right if the memory changes as the log says, and engines have no part in it. -/
theorem Accounts.setMemory {log' : List TierEvent} (hbooks : t.Accounts log)
    (hmemory : t'.codeMemory = (Ledger.of log').summary) (hengines : t'.engines = t.engines)
    (hsame : ∀ k, SameFor k log log') : t'.Accounts log' := by
  refine ⟨hmemory, ?_, ?_⟩
  · intro e engine hengine
    rw [hengines] at hengine
    exact (hbooks.engines e engine hengine).congr (hsame e)
  · intro e hnone
    rw [hengines] at hnone
    exact (hsame e).absent (hbooks.absent e hnone)

/-- An event that does not concern holders leaves the books. -/
theorem Accounts.silent (hbooks : t.Accounts log) (event : TierEvent)
    (hsilent : event.silent = true) : t.Accounts (event :: log) := by
  have hledger : (Ledger.of log).apply event = Ledger.of log := by
    cases event <;> first | rfl | cases hsilent
  refine hbooks.setMemory ?_ rfl fun k => .silent hledger ?_
  · rw [Ledger.of, hledger]
    exact hbooks.memory
  · rintro id rfl
    cases hsilent

theorem Accounts.setFlags (hbooks : t.Accounts log) (id : FunctionId) (f : Flags → Flags) :
    (t.setFlags id f).Accounts log :=
  ⟨hbooks.memory, hbooks.engines, hbooks.absent⟩

/-- An engine turns to the code memory. -/
theorem Accounts.acquireFor (hbooks : t.Accounts log) (hengine : t.engines[e]? = some engine)
    (hlive : 0 < engine.handles) (id : FunctionId) :
    (t.acquireFor e engine).1.Accounts (reachEvents e engine id ++ log) := by
  have hbooked := hbooks.engines e engine hengine
  have hl := Ledger.wellFormed_of log
  have hget := getElem?_acquireFor hengine
  have hattempted : ∀ k, k ≠ e → SameFor k log (.attempted e id :: log) := by
    intro k hk
    refine .silent rfl ?_
    rintro id' ⟨⟩
    exact hk rfl
  cases hacquired : engine.acquired with
  | true =>
    -- The engine holds the memory already, and only the attempt is new.
    have hreach : reachEvents e engine id ++ log = .attempted e id :: log := by
      simp [reachEvents, hacquired]
    have hmemory : (t.acquireFor e engine).1.codeMemory = t.codeMemory := by
      simp [Tier.acquireFor, hacquired]
    rw [hreach]
    refine hbooks.change (hmemory.trans hbooks.memory) hget hattempted ?_
    refine ⟨hbooked.cache, ?_, hbooked.entries, fun _ => rfl, ?_⟩
    · exact hbooked.holds.trans (by simp [hacquired])
    · simp [hlive]
  | false =>
    have hreach : reachEvents e engine id ++ log =
        .acquired (.engine e) engine.config.optLevel :: .attempted e id :: log := by
      simp [reachEvents, hacquired]
    have hmemory : (t.acquireFor e engine).1.codeMemory =
        t.codeMemory.acquire engine.config.optLevel := by
      simp [Tier.acquireFor, hacquired, Tier.setEngine]
    have hfresh : ¬ (Ledger.of log).Holds (.engine e) := by
      rw [hbooked.holds, hacquired]
      exact Bool.false_ne_true
    rw [hreach]
    refine hbooks.change ?_ hget ?_ ?_
    · rw [hmemory, hbooks.memory]
      exact (hl.summary_acquired hfresh).symm
    · intro k hk
      refine (hattempted k hk).trans (.acquired ?_)
      simpa [Holder.belongsTo] using Ne.symm hk
    · refine ⟨hbooked.cache, ?_, ?_, fun _ => rfl, ?_⟩
      · exact hl.holds_acquired.trans (by simp)
      · intro id'
        exact hl.holds_acquired.trans (by simpa using hbooked.entries id')
      · simp [hlive]

/-- An engine that holds the code memory stores code. -/
theorem Accounts.stored {code : CompiledCode} {cache : CodeCache} (hbooks : t.Accounts log)
    (hengine : t.engines[e]? = some engine) (hacquired : engine.acquired = true)
    (hinsert : engine.cache.insert id code = .ok cache) :
    (t.stored e engine cache).Accounts (.shared (.entry e id) (.engine e) :: log) := by
  have hbooked := hbooks.engines e engine hengine
  have hl := Ledger.wellFormed_of log
  have hsource := hbooked.holds.2 hacquired
  refine hbooks.change ?_ (getElem?_setEngine (t := { t with codeMemory := _ }) hengine _) ?_ ?_
  · -- The entry is a new holder, unless it takes the place of an earlier one.
    show (t.codeMemory.retain cache.count).release engine.cache.count = _
    rw [hbooks.memory, hbooked.cache.count_insert hinsert, CodeMemory.release_retain]
    by_cases hentry : id ∈ engine.cache.functions
    · have hheld := (hbooked.entries id).2 hentry
      have hshared := hl.summary_shared_again hsource hheld
      rw [if_pos hentry, Nat.sub_self]
      exact hshared.symm
    · have hfresh := mt (hbooked.entries id).1 hentry
      have hshared := hl.summary_shared hsource hfresh
      rw [if_neg hentry, Nat.add_sub_cancel_left]
      exact hshared.symm
    · split <;> omega
  · intro k hk
    refine .shared hsource ?_
    simpa [Holder.belongsTo] using Ne.symm hk
  · refine ⟨hbooked.cache.insert hinsert, ?_, ?_, fun _ => hacquired, ?_⟩
    · exact (Ledger.holds_shared hsource).trans (by simpa using hbooked.holds)
    · intro id'
      refine (Ledger.holds_shared hsource).trans ?_
      rw [CodeCache.functions_insert hinsert, hbooked.entries]
      simp
    · simpa using hbooked.attempted

theorem Accounts.obtain (hbooks : t.Accounts log) (hengine : t.engines[e]? = some engine)
    (hlive : 0 < engine.handles) (id : FunctionId) (s : Script) :
    (t.obtain e engine id s).2.Accounts (obtainEvents e engine id s ++ log) := by
  have hobtained := obtained t e engine id s
  generalize t.obtain e engine id s = outcome, obtainEvents e engine id s = events at hobtained
  cases hobtained with
  | disabled hdisabled => exact hbooks
  | cached henabled hget => exact hbooks
  | refused henabled hget hrefused => exact hbooks.acquireFor hengine hlive id
  | stored henabled hget hcompile hinsert =>
    have hacquired := getElem?_acquireFor hengine e
    rw [if_pos rfl] at hacquired
    exact (hbooks.acquireFor hengine hlive id).stored hacquired rfl hinsert

theorem Accounts.compileNow (hbooks : t.Accounts log) (hlive : t.Live e) (id : FunctionId)
    (s : Script) : (t.compileNow e id s).2.Accounts (t.compileEvents e id s ++ log) := by
  obtain ⟨engine, hengine, hpos⟩ := hlive
  have hobtained := hbooks.obtain hengine hpos id s
  have hrequested := requested t e id s
  generalize t.compileNow e id s = outcome, t.compileEvents e id s = events at hrequested
  cases hrequested with
  | absent hnone => exact hbooks
  | @compiled engine' code t' hengine' hobtain =>
    cases hengine.symm.trans hengine'
    rw [hobtain] at hobtained
    exact (hobtained.silent (.compiled e id) rfl).setFlags id _
  | @disabled engine' t' hengine' hobtain =>
    cases hengine.symm.trans hengine'
    rw [hobtain] at hobtained
    exact hobtained
  | @failed engine' err t' hengine' hobtain =>
    cases hengine.symm.trans hengine'
    rw [hobtain] at hobtained
    exact (hobtained.silent (.failed e id) rfl).setFlags id _

theorem Accounts.choose (hbooks : t.Accounts log)
    (hlive : ∀ e, t.installed = some e → t.Live e) (id : FunctionId) (s : Script)
    (c : Counters) : (choose id s c t).2.Accounts (t.chooseEvents id s c ++ log) := by
  have hchosen := chosen t id s c
  generalize Tier.choose id s c t = outcome, t.chooseEvents id s c = events at hchosen
  -- The start of a compilation changes flags only.
  have hstarted : ∀ {e : Nat}, (t.claimed id).Accounts (.started e id :: log) := by
    intro e
    exact (hbooks.silent (.started e id) rfl).setFlags id _
  cases hchosen with
  | settled => exact hbooks
  | @compiled e engine code t' hinstalled hengine hstarts hobtain =>
    obtain ⟨engine', hengine', hpos⟩ := hlive e hinstalled
    cases hengine.symm.trans hengine'
    have hobtained := (hstarted (e := e)).obtain hengine hpos id s
    rw [hobtain] at hobtained
    rw [List.cons_append, List.append_assoc]
    exact (hobtained.silent (.compiled e id) rfl).setFlags id _
  | @failed e engine err t' hinstalled hengine hstarts hobtain =>
    obtain ⟨engine', hengine', hpos⟩ := hlive e hinstalled
    cases hengine.symm.trans hengine'
    have hobtained := (hstarted (e := e)).obtain hengine hpos id s
    rw [hobtain] at hobtained
    rw [List.cons_append, List.append_assoc]
    exact (hobtained.silent (.failed e id) rfl).setFlags id _

/-- An engine changes in what the log does not speak of. -/
theorem Accounts.setEngine {engine' : Engine} (hbooks : t.Accounts log)
    (hengine : t.engines[e]? = some engine) (hcache : engine'.cache.WellKept)
    (hfunctions : engine'.cache.functions = engine.cache.functions)
    (hacquired : engine'.acquired = engine.acquired)
    (hhandles : 0 < engine'.handles ↔ 0 < engine.handles) :
    (t.setEngine e engine').Accounts log := by
  have hbooked := hbooks.engines e engine hengine
  refine hbooks.change hbooks.memory (getElem?_setEngine hengine _) (fun k _ => .refl) ?_
  refine ⟨hcache, ?_, ?_, ?_, ?_⟩
  · rw [hacquired]
    exact hbooked.holds
  · rw [hfunctions]
    exact hbooked.entries
  · rw [hfunctions, hacquired]
    exact hbooked.acquired
  · rw [hacquired, hhandles]
    exact hbooked.attempted

theorem Accounts.cloneEngine (hbooks : t.Accounts log) (hlive : t.Live e) :
    (t.cloneEngine e).Accounts log := by
  obtain ⟨engine, hengine, hpos⟩ := hlive
  simp only [Tier.cloneEngine, hengine]
  refine hbooks.setEngine hengine (hbooks.engines e engine hengine).cache rfl rfl ?_
  show 0 < engine.handles + 1 ↔ 0 < engine.handles
  omega

theorem Accounts.invalidate (hbooks : t.Accounts log) (hlive : t.Live e) (id : FunctionId) :
    (t.invalidate e id).Accounts (.invalidated e id :: log) := by
  obtain ⟨engine, hengine, _⟩ := hlive
  have hcache := (hbooks.engines e engine hengine).cache.invalidate id
  simp only [Tier.invalidate, hengine]
  have hbooks' : (t.setEngine e { engine with cache := engine.cache.invalidate id }).Accounts log :=
    hbooks.setEngine hengine hcache CodeCache.functions_invalidate rfl Iff.rfl
  exact (hbooks'.silent (.invalidated e id) rfl).setFlags id _

/-- A new engine has no books yet. -/
theorem Accounts.addEngine (hbooks : t.Accounts log) (config : EngineConfig) :
    (t.addEngine config).Accounts log := by
  have hget : ∀ e, (t.addEngine config).engines[e]? =
      if e = t.engines.size then some { config, cache := { limit := config.maxCodeSize } }
      else t.engines[e]? := by
    intro e
    rw [Tier.addEngine, Array.getElem?_push]
  obtain ⟨hholds, hattempted⟩ := hbooks.absent t.engines.size (by simp)
  refine hbooks.change hbooks.memory hget (fun k _ => .refl) ?_
  refine ⟨CodeCache.wellKept_empty _, ?_, ?_, fun hne => absurd rfl hne, ?_⟩
  · have hnone := hholds (.engine t.engines.size) (by simp [Holder.belongsTo])
    simpa using hnone
  · intro id
    have hnone := hholds (.entry t.engines.size id) (by simp [Holder.belongsTo])
    simpa [CodeCache.functions] using hnone
  · simpa using hattempted

/-! ## Releases -/

/-- The entries of an engine's cache as holders. -/
def entryHolders (e : Nat) (engine : Engine) : List Holder :=
  engine.cache.functions.map (Holder.entry e)

theorem length_entryHolders : (entryHolders e engine).length = engine.cache.count := by
  simp [entryHolders, CodeCache.functions, CodeCache.count]

theorem nodup_entryHolders (hcache : engine.cache.WellKept) : (entryHolders e engine).Nodup := by
  refine List.Nodup.map ?_ hcache.distinct
  rintro id id' ⟨⟩
  rfl

theorem mem_entryHolders_iff (hbooked : engine.Booked e log) :
    h ∈ entryHolders e engine ↔ (Ledger.of log).Holds h ∧ h.isEntryOf e := by
  rw [entryHolders, List.mem_map]
  constructor
  · rintro ⟨id, hid, rfl⟩
    exact ⟨(hbooked.entries id).2 hid, by simp [Holder.isEntryOf]⟩
  · rintro ⟨hheld, hentry⟩
    cases h with
    | entry e' id =>
      obtain rfl : e' = e := by simpa [Holder.isEntryOf] using hentry
      exact ⟨id, (hbooked.entries id).1 hheld, rfl⟩
    | direct | code | engine => cases hentry

/-- The entries of an engine's cache are as many holders. -/
theorem countP_isEntryOf (hbooked : engine.Booked e log) :
    ((Ledger.of log).held.countP fun x => x.1.isEntryOf e) = engine.cache.count := by
  rw [← length_entryHolders (e := e)]
  refine (Ledger.wellFormed_of log).countP_eq _ (nodup_entryHolders hbooked.cache) ?_
  intro h
  exact mem_entryHolders_iff hbooked

/-- What belongs to an engine are these entries, and the engine itself once it has turned to the
code memory. -/
theorem countP_belongsTo (hbooked : engine.Booked e log) :
    ((Ledger.of log).held.countP fun x => x.1.belongsTo e) =
      engine.cache.count + if engine.acquired then 1 else 0 := by
  have hl := Ledger.wellFormed_of log
  have hnodup := nodup_entryHolders (e := e) hbooked.cache
  have hbelongs : ∀ h : Holder, h.belongsTo e ↔ h = .engine e ∨ h.isEntryOf e := by
    intro h
    cases h <;> simp [Holder.belongsTo, Holder.isEntryOf]
  cases hacquired : engine.acquired with
  | true =>
    have hown := hbooked.holds.2 hacquired
    have hnames : (.engine e :: entryHolders e engine).Nodup := by
      refine List.nodup_cons.2 ⟨?_, hnodup⟩
      rw [mem_entryHolders_iff hbooked]
      rintro ⟨_, hentry⟩
      cases hentry
    have hcount := hl.countP_eq (·.belongsTo e) hnames ?_
    · rw [hcount, List.length_cons, length_entryHolders]
      rfl
    · intro h
      rw [List.mem_cons, mem_entryHolders_iff hbooked, hbelongs]
      constructor
      · rintro (rfl | ⟨hheld, hentry⟩)
        · exact ⟨hown, .inl rfl⟩
        · exact ⟨hheld, .inr hentry⟩
      · rintro ⟨hheld, rfl | hentry⟩
        · exact .inl rfl
        · exact .inr ⟨hheld, hentry⟩
  | false =>
    have hown : ¬ (Ledger.of log).Holds (.engine e) := by
      rw [hbooked.holds, hacquired]
      exact Bool.false_ne_true
    have hcount := hl.countP_eq (·.belongsTo e) hnodup ?_
    · rw [hcount, length_entryHolders]
      rfl
    · intro h
      rw [mem_entryHolders_iff hbooked, hbelongs]
      constructor
      · rintro ⟨hheld, hentry⟩
        exact ⟨hheld, .inr hentry⟩
      · rintro ⟨hheld, rfl | hentry⟩
        · exact absurd hheld hown
        · exact ⟨hheld, hentry⟩

theorem Accounts.clearCache (hbooks : t.Accounts log) (hlive : t.Live e) :
    (t.clearCache e).Accounts (.cleared e :: log) := by
  obtain ⟨engine, hengine, _⟩ := hlive
  have hbooked := hbooks.engines e engine hengine
  have hreleased : Ledger.of (.cleared e :: log) = (Ledger.of log).release (·.isEntryOf e) := rfl
  simp only [Tier.clearCache, hengine]
  refine hbooks.change ?_ (getElem?_setEngine (t := { t with codeMemory := _ }) hengine _) ?_ ?_
  · rw [hreleased, Ledger.summary_release, countP_isEntryOf hbooked, ← hbooks.memory]
    rfl
  · intro k hk
    refine .released (·.isEntryOf e) rfl ?_ (by simp)
    intro h hbelongs hentry
    cases h with
    | entry e' id =>
      simp only [Holder.belongsTo, Holder.isEntryOf, decide_eq_true_eq] at hbelongs hentry
      exact hk (hbelongs.symm.trans hentry)
    | direct | code | engine => cases hentry
  · refine ⟨.clear _, ?_, ?_, fun hne => absurd rfl hne, ?_⟩
    · rw [hreleased, Ledger.holds_release]
      simpa [Holder.isEntryOf] using hbooked.holds
    · intro id
      rw [hreleased, Ledger.holds_release]
      simp [Holder.isEntryOf, CodeCache.functions, CodeCache.clear]
    · simpa using hbooked.attempted

theorem Accounts.dropEngine (hbooks : t.Accounts log) (hlive : t.Live e) :
    (t.dropEngine e).Accounts (t.dropEvents e ++ log) := by
  obtain ⟨engine, hengine, hpos⟩ := hlive
  have hbooked := hbooks.engines e engine hengine
  simp only [Tier.dropEngine, dropEvents, hengine]
  split
  · rename_i hmore
    refine hbooks.setEngine hengine hbooked.cache rfl rfl ?_
    show 0 < engine.handles - 1 ↔ 0 < engine.handles
    omega
  · -- The last handle: all that belongs to the engine lets go.
    have hreleased : Ledger.of (.ended e :: log) = (Ledger.of log).release (·.belongsTo e) := rfl
    refine hbooks.change ?_ (getElem?_setEngine (t := { t with codeMemory := _ }) hengine _) ?_ ?_
    · show _ = (Ledger.of (.ended e :: log)).summary
      rw [hreleased, Ledger.summary_release, countP_belongsTo hbooked, ← hbooks.memory]
      rfl
    · intro k hk
      refine .released (·.belongsTo e) rfl ?_ (by simp)
      intro h hk' he'
      cases h with
      | engine e' | entry e' id =>
        simp only [Holder.belongsTo, decide_eq_true_eq] at hk' he'
        exact hk (hk'.symm.trans he')
      | direct | code => cases he'
    · refine ⟨.clear _, ?_, ?_, fun hne => absurd rfl hne, ?_⟩
      · show (Ledger.of (.ended e :: log)).Holds _ ↔ _
        rw [hreleased, Ledger.holds_release]
        simp [Holder.belongsTo]
      · intro id
        show (Ledger.of (.ended e :: log)).Holds _ ↔ _
        rw [hreleased, Ledger.holds_release]
        simp [Holder.belongsTo, CodeCache.functions, CodeCache.clear]
      · simp

/-! ## Holders outside of engines -/

theorem not_belongsTo_of_outside (h : Holder) (houtside : h.Outside) : ¬ h.belongsTo k := by
  cases h with
  | direct | code => exact Bool.false_ne_true
  | engine | entry => cases houtside

theorem Accounts.drop (hbooks : t.Accounts log) (houtside : h.Outside)
    (hheld : (Ledger.of log).Holds h) :
    { t with codeMemory := t.codeMemory.release 1 }.Accounts (.dropped h :: log) := by
  have hreleased : Ledger.of (.dropped h :: log) = (Ledger.of log).release (· = h) := rfl
  have hcount : ((Ledger.of log).held.countP fun x => x.1 = h) = 1 := by
    refine (Ledger.wellFormed_of log).countP_eq (· = h) (List.nodup_singleton h) ?_
    intro other
    rw [List.mem_singleton, decide_eq_true_eq]
    constructor
    · rintro rfl
      exact ⟨hheld, rfl⟩
    · exact And.right
  refine hbooks.setMemory ?_ rfl fun k => .released (· = h) rfl ?_ (by simp)
  · rw [hreleased, Ledger.summary_release, hcount, ← hbooks.memory]
  · intro other hbelongs hother
    rw [decide_eq_true_eq] at hother
    subst hother
    exact not_belongsTo_of_outside other houtside hbelongs

/-! ## Processes -/

/-- Every operation keeps the books right. -/
theorem Accounts.step (hbooks : t.Accounts log) (hprocess : Process p t log)
    (hstep : Step p (.of log) t events t') : t'.Accounts (events ++ log) := by
  have hl := Ledger.wellFormed_of log
  cases hstep with
  | addEngine config => exact hbooks.addEngine config
  | cloneEngine hlive => exact hbooks.cloneEngine hlive
  | dropEngine hlive hidle => exact hbooks.dropEngine hlive
  | compileNow hlive hscript => exact hbooks.compileNow hlive _ _
  | invalidate hlive hscript => exact hbooks.invalidate hlive _
  | clearCache hlive => exact hbooks.clearCache hlive
  | claim hscript => exact hbooks.setFlags _ _
  | install hlive => exact ⟨hbooks.memory, hbooks.engines, hbooks.absent⟩
  | restore hlive => exact ⟨hbooks.memory, hbooks.engines, hbooks.absent⟩
  | choose hscript c => exact hbooks.choose (fun _ => live_of_installed hprocess) _ _ c
  | acquire hfresh level =>
    refine hbooks.setMemory ?_ rfl fun k => .acquired (not_belongsTo_of_outside _ trivial)
    rw [hbooks.memory]
    exact (hl.summary_acquired hfresh).symm
  | share houtside hfresh hsource =>
    refine hbooks.setMemory ?_ rfl fun k => .shared hsource (not_belongsTo_of_outside _ houtside)
    rw [hbooks.memory]
    exact (hl.summary_shared hsource hfresh).symm
  | drop houtside hheld => exact hbooks.drop houtside hheld

/-- The books are right in every state of a process. -/
theorem accounts_of_process (h : Process p t log) : t.Accounts log := by
  induction h with
  | start => exact ⟨rfl, by simp, by simp [Ledger.of, Ledger.Holds]⟩
  | step hprocess hstep ih => exact ih.step hprocess hstep

/-! ## Creation -/

/-- The memories created go up by one if somebody asks for one and none is alive. -/
def CreatedBy (t : Tier) (events : List TierEvent) (t' : Tier) : Prop :=
  t'.codeMemory.created = t.codeMemory.created +
    if events.any TierEvent.acquires ∧ t.codeMemory.live = 0 then 1 else 0

theorem createdBy_of_same (hevents : events.any TierEvent.acquires = false)
    (hcreated : t'.codeMemory.created = t.codeMemory.created) : t.CreatedBy events t' := by
  simp [CreatedBy, hevents, hcreated]

theorem created_acquire (m : CodeMemory) (level : OptLevel) :
    (m.acquire level).created = m.created + if m.live = 0 then 1 else 0 := by
  rw [CodeMemory.acquire, CodeMemory.live]
  split <;> simp

theorem createdBy_acquireFor (t : Tier) (e : Nat) (engine : Engine) (id : FunctionId) :
    t.CreatedBy (reachEvents e engine id) (t.acquireFor e engine).1 := by
  rw [reachEvents, Tier.acquireFor]
  split
  · exact createdBy_of_same rfl rfl
  · show (t.codeMemory.acquire engine.config.optLevel).created = _
    rw [created_acquire]
    simp [TierEvent.acquires]

theorem createdBy_obtain (t : Tier) (e : Nat) (engine : Engine) (id : FunctionId) (s : Script) :
    t.CreatedBy (obtainEvents e engine id s) (t.obtain e engine id s).2 := by
  have hobtained := obtained t e engine id s
  generalize t.obtain e engine id s = outcome, obtainEvents e engine id s = events at hobtained
  have hreach := createdBy_acquireFor t e engine id
  cases hobtained with
  | disabled hdisabled => exact createdBy_of_same rfl rfl
  | cached henabled hget => exact createdBy_of_same rfl rfl
  | refused henabled hget hrefused => exact hreach
  | stored henabled hget hcompile hinsert => exact hreach

/-- A memory is created exactly by an operation that asks for one when none is alive. -/
theorem createdBy_of_step {l : Ledger} (hstep : Step p l t events t') : t.CreatedBy events t' := by
  cases hstep with
  | addEngine config => exact createdBy_of_same rfl rfl
  | cloneEngine hlive =>
    obtain ⟨engine, hengine, _⟩ := hlive
    simp only [Tier.cloneEngine, hengine]
    exact createdBy_of_same rfl rfl
  | dropEngine hlive hidle =>
    obtain ⟨engine, hengine, _⟩ := hlive
    simp only [Tier.dropEngine, dropEvents, hengine]
    split
    · exact createdBy_of_same rfl rfl
    · exact createdBy_of_same rfl rfl
  | @compileNow _ e id s hlive hscript =>
    have hrequested := requested t e id s.script
    generalize t.compileNow e id s.script = outcome, t.compileEvents e id s.script = events
      at hrequested
    cases hrequested with
    | absent hengine => exact createdBy_of_same rfl rfl
    | @compiled engine _ _ _ hobtain
    | @disabled engine _ _ hobtain
    | @failed engine _ _ _ hobtain =>
      have hcreated := createdBy_obtain t e engine id s.script
      rw [hobtain] at hcreated
      exact hcreated
  | invalidate hlive hscript =>
    obtain ⟨engine, hengine, _⟩ := hlive
    simp only [Tier.invalidate, hengine]
    exact createdBy_of_same rfl rfl
  | clearCache hlive =>
    obtain ⟨engine, hengine, _⟩ := hlive
    simp only [Tier.clearCache, hengine]
    exact createdBy_of_same rfl rfl
  | claim hscript => exact createdBy_of_same rfl rfl
  | install hlive => exact createdBy_of_same rfl rfl
  | restore hlive => exact createdBy_of_same rfl rfl
  | @choose _ id s hscript c =>
    have hchosen := chosen t id s.script c
    generalize Tier.choose id s.script c t = outcome, t.chooseEvents id s.script c = events
      at hchosen
    cases hchosen with
    | settled => exact createdBy_of_same rfl rfl
    | @compiled e engine _ _ _ _ _ hobtain | @failed e engine _ _ _ _ _ hobtain =>
      have hcreated := createdBy_obtain (t.claimed id) e engine id s.script
      rw [hobtain] at hcreated
      simp only [CreatedBy, List.any_cons, List.any_append, List.any_nil, Bool.or_false,
        Bool.false_or, TierEvent.acquires_compiled, TierEvent.acquires_failed,
        TierEvent.acquires_started]
      exact hcreated
  | acquire hfresh level =>
    show (t.codeMemory.acquire level).created = _
    rw [created_acquire]
    simp [TierEvent.acquires]
  | share houtside hfresh hsource => exact createdBy_of_same rfl rfl
  | drop houtside hheld => exact createdBy_of_same rfl rfl

/-! ## The contract -/

/-- What holds of the code memory in a state that a process comes to with the given log. -/
structure Lifetime (p : Program) (t : Tier) (log : List TierEvent) : Prop where
  /-- The counters are right: as many memories were created, and as many different ones are held,
  as the ledger says. -/
  counters : t.codeMemory.created = (Ledger.of log).created ∧
    t.codeMemory.live = (Ledger.of log).live
  live_le : t.codeMemory.live ≤ 1
  /-- A memory is alive exactly if somebody holds it directly, somebody keeps code, an engine with
  handles has turned to the memory to compile, or one has code in its cache, valid or not. -/
  live_iff : t.codeMemory.live = 1 ↔
    (∃ k, (Ledger.of log).Holds (.direct k)) ∨ (∃ k, (Ledger.of log).Holds (.code k)) ∨
      (∃ e id, t.Live e ∧ .attempted e id ∈ log) ∨
      ∃ (e : Nat) (engine : Engine) (id : FunctionId) (entry : CacheEntry),
        t.engines[e]? = some engine ∧ 0 < engine.handles ∧ (id, entry) ∈ engine.cache.entries
  /-- The next operation creates one if it asks for one and none is alive, and not otherwise. -/
  created : ∀ {events : List TierEvent} {t' : Tier}, Step p (.of log) t events t' →
    t'.codeMemory.created = t.codeMemory.created +
      if events.any TierEvent.acquires ∧ t.codeMemory.live = 0 then 1 else 0
  /-- All holders share the memory that was created last. -/
  shared : ∀ {h : Holder} {n : Nat}, (Ledger.of log).memory? h = some n →
    n = t.codeMemory.created
  /-- Its level was asked for by the acquisition that created it. -/
  level : t.codeMemory.live = 1 → ∃ later holder earlier,
    log = later ++ .acquired holder t.codeMemory.level :: earlier ∧
      (Ledger.of earlier).live = 0 ∧ (Ledger.of earlier).created + 1 = t.codeMemory.created
  /-- A holder keeps its memory until it is dropped itself, whatever else happens. -/
  kept : ∀ {events : List TierEvent} {t' : Tier} {h : Holder} {n : Nat},
    Process p t' (events ++ log) → (Ledger.of log).memory? h = some n →
    (∀ event ∈ events, ¬ event.Drops h) →
    (Ledger.of (events ++ log)).memory? h = some n ∧ t'.codeMemory.live = 1 ∧
      t'.codeMemory.created = n ∧ t'.codeMemory.level = t.codeMemory.level

theorem Accounts.live_eq (hbooks : t.Accounts log) :
    t.codeMemory.live = if (Ledger.of log).held = [] then 0 else 1 := by
  rw [hbooks.memory, Ledger.summary_live]

theorem Accounts.live_of_memory? {n : Nat} (hbooks : t.Accounts log)
    (hn : (Ledger.of log).memory? h = some n) :
    t.codeMemory.live = 1 ∧ t.codeMemory.created = n := by
  refine ⟨?_, ?_⟩
  · rw [hbooks.live_eq, if_neg (Ledger.held_ne_nil hn)]
  · rw [hbooks.memory, (Ledger.wellFormed_of log).memory?_eq hn]
    rfl

/-- The holders of an engine, by what they are. -/
theorem Accounts.live_iff (hbooks : t.Accounts log) :
    t.codeMemory.live = 1 ↔
      (∃ k, (Ledger.of log).Holds (.direct k)) ∨ (∃ k, (Ledger.of log).Holds (.code k)) ∨
        (∃ e id, t.Live e ∧ .attempted e id ∈ log) ∨
        ∃ (e : Nat) (engine : Engine) (id : FunctionId) (entry : CacheEntry),
          t.engines[e]? = some engine ∧ 0 < engine.handles ∧
            (id, entry) ∈ engine.cache.entries := by
  have hlive : t.codeMemory.live = 1 ↔ ∃ h, (Ledger.of log).Holds h := by
    rw [hbooks.live_eq, Ledger.exists_holds_iff]
    split
    · simpa
    · simpa
  rw [hlive]
  constructor
  · rintro ⟨h, hheld⟩
    cases h with
    | direct k => exact .inl ⟨k, hheld⟩
    | code k => exact .inr (.inl ⟨k, hheld⟩)
    | engine e =>
      cases hengine : t.engines[e]? with
      | none =>
        have hnone := (hbooks.absent e hengine).1 (.engine e) (by simp [Holder.belongsTo])
        exact absurd hheld hnone
      | some engine =>
        have hbooked := hbooks.engines e engine hengine
        obtain ⟨hpos, id, hattempted⟩ := hbooked.attempted.1 (hbooked.holds.1 hheld)
        exact .inr (.inr (.inl ⟨e, id, ⟨engine, hengine, hpos⟩, hattempted⟩))
    | entry e id =>
      cases hengine : t.engines[e]? with
      | none =>
        have hnone := (hbooks.absent e hengine).1 (.entry e id) (by simp [Holder.belongsTo])
        exact absurd hheld hnone
      | some engine =>
        have hbooked := hbooks.engines e engine hengine
        have hentry := (hbooked.entries id).1 hheld
        have hacquired := hbooked.acquired (List.ne_nil_of_mem hentry)
        obtain ⟨⟨id', entry⟩, hmem, rfl⟩ := List.mem_map.1 hentry
        exact .inr (.inr (.inr ⟨e, engine, id', entry, hengine,
          (hbooked.attempted.1 hacquired).1, hmem⟩))
  · rintro (⟨k, hheld⟩ | ⟨k, hheld⟩ | ⟨e, id, ⟨engine, hengine, hpos⟩, hattempted⟩ |
      ⟨e, engine, id, entry, hengine, hpos, hmem⟩)
    · exact ⟨_, hheld⟩
    · exact ⟨_, hheld⟩
    · have hbooked := hbooks.engines e engine hengine
      exact ⟨_, hbooked.holds.2 (hbooked.attempted.2 ⟨hpos, id, hattempted⟩)⟩
    · have hbooked := hbooks.engines e engine hengine
      exact ⟨_, (hbooked.entries id).2 (List.mem_map.2 ⟨_, hmem, rfl⟩)⟩

theorem lifetime_of_process (h : Process p t log) : t.Lifetime p log where
  counters := by
    have hbooks := accounts_of_process h
    refine ⟨?_, ?_⟩
    · rw [hbooks.memory]
      rfl
    · rw [hbooks.live_eq, (Ledger.wellFormed_of log).live_eq]
  live_le := by
    rw [(accounts_of_process h).live_eq]
    split <;> omega
  live_iff := (accounts_of_process h).live_iff
  created hstep := createdBy_of_step hstep
  shared hn := ((accounts_of_process h).live_of_memory? hn).2.symm
  level hlive := by
    have hbooks := accounts_of_process h
    have hne : (Ledger.of log).held ≠ [] := by
      intro hnil
      rw [hbooks.live_eq, if_pos hnil] at hlive
      cases hlive
    obtain ⟨level, rest, hlevels⟩ :=
      List.exists_cons_of_ne_nil ((Ledger.wellFormed_of log).levels_ne_nil hne)
    obtain ⟨later, holder, earlier, hlog, hdead, hrest⟩ := Ledger.created_by hlevels
    have hlevel : t.codeMemory.level = level := by
      rw [hbooks.memory, Ledger.summary, hlevels]
      rfl
    refine ⟨later, holder, earlier, ?_, hdead, ?_⟩
    · rw [hlevel]
      exact hlog
    · rw [hbooks.memory, Ledger.created, hrest, Ledger.summary, Ledger.created, hlevels]
      rfl
  kept {events t' holder n} hlater hn hkept := by
    have hbooks := accounts_of_process h
    have hbooks' := accounts_of_process hlater
    have hn' := Ledger.memory?_append hn hkept
    obtain ⟨hlive', hcreated'⟩ := hbooks'.live_of_memory? hn'
    obtain ⟨hlive, hcreated⟩ := hbooks.live_of_memory? hn
    refine ⟨hn', hlive', hcreated', ?_⟩
    -- No memory was created in between, so the levels are the same.
    have hlevels : (Ledger.of log).levels = (Ledger.of (events ++ log)).levels := by
      refine (Ledger.levels_suffix_append log events).eq_of_length ?_
      rw [hbooks.memory] at hcreated
      rw [hbooks'.memory] at hcreated'
      exact hcreated.trans hcreated'.symm
    rw [hbooks.memory, hbooks'.memory, Ledger.summary, Ledger.summary, hlevels]

end Tier

open Tier

/-- The code memory lives as long as somebody holds it.  That is so in every state that a process
comes to by any operations on engines and on what is held, and a call leads to such states only:
when it has ended, and at every moment until then. -/
theorem code_memory_lifetime (p : Program) :
    (∀ {t : Tier} {log : List TierEvent}, Process p t log → t.Lifetime p log) ∧
      (∀ {amb : Ambient Tier} {log : List TierEvent} {e : Nat} {fuel : Nat} {id : FunctionId}
        {args : List Argument} {slots : ReturnSlots} {memory : Memory} {r : Result Tier},
        Process p amb.tier log → amb.tier.Live e →
        (∀ e, p.CallsVia (some e) → amb.tier.Live e) →
        engineCall p fuel e id args slots memory amb = .ok r →
        ∃ events, Process p r.ambient.tier (events ++ log)) ∧
      ∀ {amb : Ambient Tier} {log : List TierEvent} {via : Option Nat} {v w : Invocation Tier}
        {moment : Ambient Tier},
        Process p amb.tier log → (∀ e, via = some e → amb.tier.Live e) →
        (∀ e, p.CallsVia (some e) → amb.tier.Live e) →
        v.ambient = Tier.dispatcher.outgoing via amb → Within p Tier.dispatcher v w →
        Visits p Tier.dispatcher w moment → ∃ events, Process p moment.tier (events ++ log) := by
  refine ⟨lifetime_of_process, ?_, ?_⟩
  · intro amb log e fuel id args slots memory r hprocess hlive hnatives hcall
    exact process_of_engineCall hprocess hlive hnatives hcall
  · intro amb log via v w moment hprocess hvia hnatives hv hwithin hvisits
    exact process_of_moment hprocess hvia hnatives hv hwithin hvisits

/-- The function of `emptyScript`. -/
def emptyFunction : LoadedScript := Script.load { name := "f" }

/-- An engine that compiles every function at once, before it has done anything. -/
def eagerTier : Tier :=
  ({ flags := Array.replicate emptyScript.size {} } : Tier).addEngine
    { policy := { callThreshold := 0 }, optLevel := .none }

/-- The state around a call with this engine. -/
def eagerAmbient : Ambient Tier where
  counters := Array.replicate emptyScript.size {}
  tier := eagerTier

theorem process_eagerTier : Process emptyScript eagerTier [] := Process.start.step (.addEngine _)

theorem not_callsVia_emptyScript (via : Option Nat) : ¬ emptyScript.CallsVia via := by
  rintro ⟨id, n, values, slots, hnative, _⟩
  match id, hnative with
  | 0, hnative => cases hnative

/-- A function is compiled, its code is kept, and the engine is dropped.  The code memory stays, at
the level that the engine asked for.  A call through the engine is part of a process, too. -/
theorem code_memory_lifetime_keptCode :
    (∃ t log, Process emptyScript t log ∧ ¬ t.Live 0 ∧
        (Ledger.of log).memory? (.code 0) = some 1 ∧ t.codeMemory.live = 1 ∧
        t.codeMemory.created = 1 ∧ t.codeMemory.level = .none) ∧
      (∃ r events, engineCall emptyScript 2 0 0 [] (.fresh []) {} eagerAmbient = .ok r ∧
        Process emptyScript r.ambient.tier (events ++ [])) ∧
      ∃ events, Process emptyScript (eagerTier.install 0) (events ++ []) := by
  obtain ⟨hlifetime, hcalls, hmoments⟩ := code_memory_lifetime emptyScript
  have hlive : eagerTier.Live 0 := ⟨_, rfl, by decide⟩
  have hnatives : ∀ e, emptyScript.CallsVia (some e) → eagerTier.Live e :=
    fun e he => absurd he (not_callsVia_emptyScript _)
  have hvia : ∀ e, some 0 = some e → eagerTier.Live e := by
    rintro _ ⟨⟩
    exact hlive
  refine ⟨?_, ?_, ?_⟩
  · have hscript : emptyScript.functions[0]? = some (.script emptyFunction) := rfl
    let compiled := (eagerTier.compileNow 0 0 emptyFunction.script).2
    let kept := { compiled with codeMemory := compiled.codeMemory.retain 1 }
    let log := eagerTier.compileEvents 0 0 emptyFunction.script ++ []
    have hcompiled : Process emptyScript compiled log :=
      process_eagerTier.step (.compileNow hlive hscript)
    have hheld : (Ledger.of log).Holds (.entry 0 0) := by
      unfold Ledger.Holds
      decide
    have hfresh : ¬ (Ledger.of log).Holds (.code 0) := by
      unfold Ledger.Holds
      decide
    have hkept : Process emptyScript kept ([.shared (.code 0) (.entry 0 0)] ++ log) :=
      hcompiled.step (.share trivial hfresh hheld)
    have hlive' : kept.Live 0 := ⟨_, rfl, Nat.zero_lt_one⟩
    have hidle : kept.installed ≠ some 0 := fun hinstalled => nomatch hinstalled
    have hdropped : Process emptyScript (kept.dropEngine 0)
        ([.ended 0] ++ ([.shared (.code 0) (.entry 0 0)] ++ log)) :=
      hkept.step (.dropEngine hlive' hidle)
    have hundropped : ∀ event ∈ [TierEvent.ended 0], ¬ event.Drops (.code 0) := by
      simp [TierEvent.Drops, Holder.belongsTo]
    obtain ⟨hmemory, halive, hcreated, hlevel⟩ := (hlifetime hkept).kept hdropped rfl hundropped
    refine ⟨_, _, hdropped, ?_, hmemory, halive, hcreated, hlevel⟩
    rintro ⟨engine, hengine, hpos⟩
    cases hengine
    cases hpos
  · obtain ⟨r, hr⟩ : ∃ r, engineCall emptyScript 2 0 0 [] (.fresh []) {} eagerAmbient = .ok r :=
      ⟨_, rfl⟩
    obtain ⟨events, hprocess⟩ := hcalls process_eagerTier hlive hnatives hr
    exact ⟨r, events, hr, hprocess⟩
  · have hv : (⟨2, 0, [], .fresh [], {}, Tier.dispatcher.outgoing (some 0) eagerAmbient⟩ :
        Invocation Tier).ambient = Tier.dispatcher.outgoing (some 0) eagerAmbient := rfl
    exact hmoments process_eagerTier hvia hnatives hv .refl .enters

end TierVm
