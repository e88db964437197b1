import TierVm.Proofs.EngineProcess

/-!
# States that lead to the same choices

A run looks at the state of the dispatcher only to find out how scripts run.  Two states from which
the dispatcher chooses alike, now and after every further choice, thus give the same run.

* `Dispatcher.Simulates` is a relation between such states.  `SameButTier` says that two runs come
  to the same, up to related states of the dispatcher, and `invoke_same` that they do.
* `Tier.Alike` relates states of the engines that differ in who holds the code memory.
  `Tier.alike_simulates` says that engines do not look at that.
-/

namespace TierVm

variable {σ : Type}

/-! ## Runs -/

/-- States that are related lead to the same choices, and to related states. -/
structure Dispatcher.Simulates (d : Dispatcher σ) (R : σ → σ → Prop) : Prop where
  choose : ∀ (id : FunctionId) (s : Script) (c : Counters) {t t' : σ}, R t t' →
    (d.choose id s c t).1 = (d.choose id s c t').1 ∧
      R (d.choose id s c t).2 (d.choose id s c t').2
  install : ∀ {e : Nat} {t t' : σ}, R t t' → R (d.install e t) (d.install e t')
  restore : ∀ {before before' after after' : σ}, R before before' → R after after' →
    R (d.restore before after) (d.restore before' after')

/-- The state around activations with another state of the dispatcher. -/
def Ambient.withTier (amb : Ambient σ) (t : σ) : Ambient σ := { amb with tier := t }

/-- Two runs that stop for the same reason, or have the same result up to related states of the
dispatcher. -/
inductive SameButTier (R : σ → σ → Prop) :
    Except Stop (Result σ) → Except Stop (Result σ) → Prop where
  | stops (s : Stop) : SameButTier R (.error s) (.error s)
  | ends {r : Result σ} {t' : σ} (h : R r.ambient.tier t') :
      SameButTier R (.ok r) (.ok { r with ambient := r.ambient.withTier t' })

/-- The same of one instruction. -/
inductive TurnSame (R : σ → σ → Prop) : Turn σ → Turn σ → Prop where
  | stuck (s : Stop) : TurnSame R (.stuck s) (.stuck s)
  | done {r : Result σ} {t' : σ} (h : R r.ambient.tier t') :
      TurnSame R (.done r) (.done { r with ambient := r.ambient.withTier t' })
  | on (act : Activation) {amb : Ambient σ} {t' : σ} (h : R amb.tier t') :
      TurnSame R (.on act amb) (.on act (amb.withTier t'))

/-- The same of every call. -/
def CallsSame (R : σ → σ → Prop) (call : Invoke σ) : Prop :=
  ∀ id args slots memory (amb : Ambient σ) {t' : σ}, R amb.tier t' →
    SameButTier R (call id args slots memory amb) (call id args slots memory (amb.withTier t'))

section

variable {p : Program} {d : Dispatcher σ} {R : σ → σ → Prop} {call : Invoke σ} {functions : Nat}
  {self : FunctionId} {effectAt : Activation → Option (Except Trap Effect)} {amb : Ambient σ}
  {t' : σ}

section Activation

variable (hcall : CallsSame R call) (h : R amb.tier t')

include hcall h

theorem follow_same (step : Step) :
    TurnSame R (follow functions call self amb step)
      (follow functions call self (amb.withTier t') step) := by
  cases step with
  | leave act count => exact .done (r := ⟨_, _, _, amb⟩) h
  | next act backward =>
    cases backward with
    | true => exact .on act (show R (amb.countLoop self).tier t' from h)
    | false => exact .on act h
  | call act callee args slots targets =>
    simp only [follow]
    cases functionAt? functions callee with
    | none => exact .stuck .badAccess
    | some id =>
      simp only
      have hsame := hcall id args slots act.memory amb h
      generalize call id args slots act.memory amb = run at hsame
      generalize call id args slots act.memory (amb.withTier t') = run' at hsame
      cases hsame with
      | stops s => exact .stuck s
      | @ends r t' hr =>
        simp only
        cases r.outcome with
        | aborted x => exact .done (r := ⟨_, _, _, r.ambient⟩) hr
        | finished count => exact .on _ hr

theorem turn_same (act : Activation) :
    TurnSame R (turn functions call self effectAt act amb)
      (turn functions call self effectAt act (amb.withTier t')) := by
  rw [turn, turn]
  cases effectAt act with
  | none => exact .done (r := ⟨_, _, _, amb⟩) h
  | some outcome =>
    cases outcome with
    | error trap =>
      cases trap with
      | stop s => exact .stuck s
      | abort a => exact .done (r := ⟨_, _, _, amb⟩) h
    | ok e =>
      simp only
      cases act.perform e with
      | error s => exact .stuck s
      | ok step => exact follow_same hcall h step

/-- Both runs take the same turns, one after the other. -/
theorem runActivation_same (fuel : Nat) (act : Activation) :
    SameButTier R (runActivation functions call self effectAt fuel act amb)
      (runActivation functions call self effectAt fuel act (amb.withTier t')) := by
  induction fuel generalizing act amb t' with
  | zero => exact .stops _
  | succ fuel ih =>
    rw [runActivation_succ, runActivation_succ]
    have hturn : TurnSame R (turn functions call self effectAt act amb)
        (turn functions call self effectAt act (amb.withTier t')) := turn_same hcall h act
    generalize turn functions call self effectAt act amb = left at hturn
    generalize turn functions call self effectAt act (amb.withTier t') = right at hturn
    cases hturn with
    | stuck s => exact .stops s
    | done hr => exact .ends hr
    | on act' ht => exact ih ht act'

omit hcall h in
theorem SameButTier.leaveFrame {run run' : Except Stop (Result σ)} (h : SameButTier R run run') :
    SameButTier R (run.map leaveFrame) (run'.map leaveFrame) := by
  cases h with
  | stops s => exact .stops s
  | @ends r t' hr =>
    simp only [Except.map, TierVm.leaveFrame, Ambient.withTier]
    cases r.ambient.frames.pop with
    | ok frames => exact .ends (r := { r with ambient := { r.ambient with frames } }) hr
    | error x =>
      simp only
      split
      · exact .ends hr
      · exact .ends (r := { r with outcome := _ }) hr

theorem activate_same (s : Script) (fuel : Nat) (args : List Argument) (slots : ReturnSlots)
    (memory : Memory) :
    SameButTier R (activate functions call self s effectAt fuel args slots memory amb)
      (activate functions call self s effectAt fuel args slots memory (amb.withTier t')) := by
  simp only [activate, Ambient.withTier]
  cases amb.frames.push s (args.map (·.value)) with
  | mk pushed frames =>
    cases pushed with
    | error x => exact .ends (r := ⟨_, slots, memory, { amb with frames }⟩) h
    | ok frame =>
      have hframes : R ({ amb with frames } : Ambient σ).tier t' := h
      exact (runActivation_same hcall hframes fuel _).leaveFrame

theorem interpret_same (s : LoadedScript) (fuel : Nat) (args : List Argument)
    (slots : ReturnSlots) (memory : Memory) :
    SameButTier R (interpret functions call fuel self s args slots memory amb)
      (interpret functions call fuel self s args slots memory (amb.withTier t')) := by
  rw [interpret, interpret]
  cases s.verdict with
  | error defect => exact .ends (r := ⟨_, slots, memory, amb⟩) h
  | ok u => exact activate_same hcall h s.script fuel args slots memory

end Activation

variable (hd : d.Simulates R)

include hd

theorem outgoing_same (via : Option Nat) (h : R amb.tier t') :
    ∃ u, d.outgoing via (amb.withTier t') = (d.outgoing via amb).withTier u ∧
      R (d.outgoing via amb).tier u := by
  cases via with
  | none => exact ⟨t', rfl, h⟩
  | some e => exact ⟨d.install e t', rfl, hd.install h⟩

theorem returning_same (via : Option Nat) {after : Ambient σ} {u : σ} (h : R amb.tier t')
    (hafter : R after.tier u) :
    ∃ w, d.returning via (amb.withTier t') (after.withTier u) =
        (d.returning via amb after).withTier w ∧ R (d.returning via amb after).tier w := by
  cases via with
  | none => exact ⟨u, rfl, hafter⟩
  | some e => exact ⟨d.restore t' u, rfl, hd.restore h hafter⟩

/-- A native function learns the same in both runs, so it goes on alike. -/
theorem runHost_same (hcall : CallsSame R call) (args : List Argument) (program : HostProgram)
    (slots : ReturnSlots) (memory : Memory) (h : R amb.tier t') :
    SameButTier R (runHost d call args program slots memory amb)
      (runHost d call args program slots memory (amb.withTier t')) := by
  induction program generalizing slots memory amb t' with
  | finish count => exact .ends (r := ⟨_, slots, memory, amb⟩) h
  | fail x => exact .ends (r := ⟨_, slots, memory, amb⟩) h
  | write slot v next ih =>
    simp only [runHost]
    cases slots.write slot v with
    | ok slots' => exact ih slots' memory h
    | error cls => exact .ends (r := ⟨_, slots, memory, amb⟩) h
  | locate target next ih => exact ih _ slots memory h
  | load address count next ih =>
    simp only [runHost]
    cases memory.read? address count with
    | some bytes => exact ih bytes slots memory h
    | none => exact .stops _
  | store address bytes next ih =>
    simp only [runHost]
    cases memory.write? address bytes with
    | some memory' => exact ih slots memory' h
    | none => exact .stops _
  | alloc size next ih =>
    simp only [runHost]
    cases memory.alloc size with
    | ok result => exact ih _ slots _ h
    | error trap =>
      cases trap with
      | stop s => exact .stops s
      | abort a => exact ih _ slots memory h
  | call via callee passed classes next ih =>
    simp only [runHost]
    cases passedValues args slots passed with
    | none => exact .stops _
    | some values =>
      simp only
      obtain ⟨u, hout, hu⟩ := outgoing_same hd via h
      rw [hout]
      have hsame := hcall callee (values.map ({ value := · })) (.fresh classes) memory _ hu
      generalize call callee (values.map ({ value := · })) (.fresh classes) memory
        (d.outgoing via amb) = run at hsame
      generalize call callee (values.map ({ value := · })) (.fresh classes) memory
        ((d.outgoing via amb).withTier u) = run' at hsame
      cases hsame with
      | stops s => exact .stops s
      | @ends r u' hr =>
        obtain ⟨w, hback, hw⟩ := returning_same hd via h hr
        simp only
        rw [hback]
        exact ih _ slots r.memory hw

theorem dispatch_same (id : FunctionId) (s : Script) (h : R amb.tier t') :
    ∃ code after u, d.dispatch id s amb = (code, after) ∧
      d.dispatch id s (amb.withTier t') = (code, after.withTier u) ∧ R after.tier u := by
  obtain ⟨hcode, htier⟩ := hd.choose id s ((amb.countCall id).counters.getD id {}) h
  refine ⟨_, _, _, rfl, ?_, htier⟩
  exact Prod.ext hcode.symm rfl

/-- Runs from related states come to the same.  The induction is over the fuel, which bounds how
deep calls are nested. -/
theorem invoke_same (fuel : Nat) : CallsSame R (invoke p d fuel) := by
  induction fuel with
  | zero =>
    intro id args slots memory amb t' h
    exact .stops _
  | succ fuel ih =>
    intro id args slots memory amb t' h
    rw [invoke, invoke]
    cases p.functions[id]? with
    | none => exact .stops _
    | some f =>
      cases f with
      | native n =>
        have hlogged : R ({ amb with log := _ } : Ambient σ).tier t' := h
        exact runHost_same hd ih args _ slots memory hlogged
      | script s =>
        obtain ⟨code, after, u, hleft, hright, hu⟩ := dispatch_same hd id s.script h
        simp only [hleft, hright]
        cases code with
        | some code => exact activate_same ih hu s.script fuel args slots memory
        | none => exact interpret_same ih hu s fuel args slots memory

end

/-! ## Engines -/

/-- An engine, as if it did not hold the code memory. -/
def Engine.unheld (engine : Engine) : Engine := { engine with acquired := false }

namespace Tier

variable {t t' : Tier} {e : Nat} {engine engine' : Engine} {id : FunctionId} {s : Script}
  {c : Counters}

/-- The engines are the same, whoever of them holds the code memory. -/
structure Alike (t t' : Tier) : Prop where
  installed : t.installed = t'.installed
  flags : t.flags = t'.flags
  engines : ∀ k : Nat, (t.engines[k]?).map Engine.unheld = (t'.engines[k]?).map Engine.unheld

namespace Alike

theorem setFlags (h : t.Alike t') (id : FunctionId) (f : Flags → Flags) :
    (t.setFlags id f).Alike (t'.setFlags id f) :=
  ⟨h.installed, congrArg (·.modify id f) h.flags, h.engines⟩

/-- An engine differs from its counterpart in its hold only. -/
theorem unheld_eq (h : t.Alike t') (hengine : t.engines[e]? = some engine)
    (hengine' : t'.engines[e]? = some engine') : engine.unheld = engine'.unheld := by
  have hsame := h.engines e
  rw [hengine, hengine'] at hsame
  exact Option.some.inj hsame

/-- An engine that turns to the code memory is like one that does not. -/
theorem acquireFor_left (hengine : t.engines[e]? = some engine) :
    (t.acquireFor e engine).1.Alike t := by
  have hengines : ∀ k : Nat, ((t.acquireFor e engine).1.engines[k]?).map Engine.unheld =
      (t.engines[k]?).map Engine.unheld := by
    intro k
    rw [getElem?_acquireFor hengine]
    split
    · rename_i heq
      rw [heq, hengine]
      rfl
    · rfl
  refine ⟨?_, ?_, hengines⟩
  · rw [acquireFor]
    split <;> rfl
  · rw [acquireFor]
    split <;> rfl

theorem refl (t : Tier) : t.Alike t := ⟨rfl, rfl, fun _ => rfl⟩

theorem symm (h : t.Alike t') : t'.Alike t :=
  ⟨h.installed.symm, h.flags.symm, fun k => (h.engines k).symm⟩

theorem trans {t₁ t₂ t₃ : Tier} (h₁ : t₁.Alike t₂) (h₂ : t₂.Alike t₃) : t₁.Alike t₃ :=
  ⟨h₁.installed.trans h₂.installed, h₁.flags.trans h₂.flags,
    fun k => (h₁.engines k).trans (h₂.engines k)⟩

theorem stored (h : t.Alike t') (hengine : t.engines[e]? = some engine)
    (hengine' : t'.engines[e]? = some engine') (cache : CodeCache) :
    (t.stored e engine cache).Alike (t'.stored e engine' cache) := by
  refine ⟨h.installed, h.flags, ?_⟩
  intro k
  rw [getElem?_stored hengine, getElem?_stored hengine']
  split
  · exact congrArg (fun x : Engine => some { x with cache }) (h.unheld_eq hengine hengine')
  · exact h.engines k

/-- An engine obtains the same code, and does the same with it. -/
theorem obtain (h : t.Alike t') (id : FunctionId) (s : Script)
    (hengine : t.engines[e]? = some engine) (hengine' : t'.engines[e]? = some engine') :
    (t.obtain e engine id s).1 = (t'.obtain e engine' id s).1 ∧
      (t.obtain e engine id s).2.Alike (t'.obtain e engine' id s).2 := by
  obtain ⟨config, cache, acquired, handles⟩ := engine
  obtain ⟨config', cache', acquired', handles'⟩ := engine'
  cases h.unheld_eq hengine hengine'
  have hacquired : (t.acquireFor e ⟨config, cache, acquired, handles⟩).1.Alike
      (t'.acquireFor e ⟨config, cache, acquired', handles⟩).1 :=
    ((acquireFor_left hengine).trans h).trans (acquireFor_left hengine').symm
  rw [Tier.obtain, Tier.obtain]
  cases config.enabled with
  | false => exact ⟨rfl, h⟩
  | true =>
    cases cache.get? id with
    | some code => exact ⟨rfl, h⟩
    | none =>
      simp only [Bool.not_true, Bool.false_eq_true, if_false]
      rw [acquireFor_snd, acquireFor_snd]
      cases compile id s config.captureListing with
      | error err => exact ⟨rfl, hacquired⟩
      | ok code =>
        simp only [store]
        cases cache.insert id code with
        | error err => exact ⟨rfl, hacquired⟩
        | ok stored =>
          have hpresent := getElem?_acquireFor hengine e
          have hpresent' := getElem?_acquireFor hengine' e
          rw [if_pos rfl] at hpresent hpresent'
          exact ⟨rfl, hacquired.stored hpresent hpresent' stored⟩

theorem starts (h : t.Alike t') (hengine : t.engines[e]? = some engine)
    (hengine' : t'.engines[e]? = some engine') :
    t.starts engine id s c = t'.starts engine' id s c := by
  obtain ⟨config, cache, acquired, handles⟩ := engine
  obtain ⟨config', cache', acquired', handles'⟩ := engine'
  cases h.unheld_eq hengine hengine'
  rw [Tier.starts, Tier.starts, flagsOf, flagsOf, h.flags]

theorem chooseIn (h : t.Alike t') (hengine : t.engines[e]? = some engine)
    (hengine' : t'.engines[e]? = some engine') :
    (t.chooseIn e engine id s c).1 = (t'.chooseIn e engine' id s c).1 ∧
      (t.chooseIn e engine id s c).2.Alike (t'.chooseIn e engine' id s c).2 := by
  rw [chooseIn_eq, chooseIn_eq, h.starts hengine hengine']
  cases t'.starts engine' id s c with
  | false =>
    obtain ⟨config, cache, acquired, handles⟩ := engine
    obtain ⟨config', cache', acquired', handles'⟩ := engine'
    cases h.unheld_eq hengine hengine'
    exact ⟨rfl, h⟩
  | true =>
    have hclaimed : (t.claimed id).Alike (t'.claimed id) := h.setFlags id _
    obtain ⟨houtcome, hafter⟩ := hclaimed.obtain id s hengine hengine'
    generalize (t.claimed id).obtain e engine id s = left at houtcome hafter
    generalize (t'.claimed id).obtain e engine' id s = right at houtcome hafter
    obtain ⟨outcome, u⟩ := left
    obtain ⟨outcome', u'⟩ := right
    cases houtcome
    cases outcome with
    | ok code => exact ⟨rfl, hafter.setFlags id _⟩
    | error err => exact ⟨rfl, hafter.setFlags id _⟩

/-- Engines do not look at who holds the code memory. -/
theorem choose (h : t.Alike t') :
    (choose id s c t).1 = (choose id s c t').1 ∧
      (choose id s c t).2.Alike (choose id s c t').2 := by
  rw [Tier.choose, Tier.choose, ← h.installed]
  cases t.installed with
  | none => exact ⟨rfl, h⟩
  | some e =>
    have hengines := h.engines e
    cases hengine : t.engines[e]? with
    | none =>
      rw [hengine] at hengines
      have hnone : t'.engines[e]? = none := Option.map_eq_none_iff.1 hengines.symm
      simp only [hengine, hnone]
      exact ⟨trivial, h⟩
    | some engine =>
      rw [hengine] at hengines
      obtain ⟨engine', hengine', _⟩ := Option.map_eq_some_iff.1 hengines.symm
      simp only [hengine, hengine']
      exact h.chooseIn hengine hengine'

end Alike

theorem alike_simulates : Tier.dispatcher.Simulates Alike where
  choose _ _ _ _ _ h := h.choose
  install h := ⟨rfl, h.flags, h.engines⟩
  restore hbefore hafter := ⟨hbefore.installed, hafter.flags, hafter.engines⟩

end Tier

end TierVm
