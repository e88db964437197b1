import TierVm.Proofs.VerifierSoundness

/-!
# Where an abort comes from

An abort is raised once and handed on by every activation around it.  What arrives at the outermost
invocation is a reason, an argument, a payload and a place.  This module traces these back to the
one raise.

* Runs are determined.  `Starts.unique`, `Refuses.unique`, `Asks.unique`, `hostMoves_unique` and
  `eq_of_reaches_end`: an invocation can go one way only.
* Origins.  `AbortsBy` is the chain of calls from an invocation to the raise: an instruction raises
  an abort, an invocation is refused, a native function fails, or an activation stands at a call of
  an invocation which aborts and does not move on.  There is one chain at most (`AbortsBy.unique`).
* `abortsBy_of_run`: a run that is aborted has such a chain, and reports what was raised.  The
  induction is over the fuel.
* Records.  `record_of_sites`: an exception record that is filled by the raise and attributed to
  every call on the way out holds what is reported.
* `abort_attribution` is all of it.
-/

namespace TierVm

variable {σ : Type}

/-! ## Runs are determined -/

/-- Two paths to states without a way on lead to the same state, if there is one way at most from
each. -/
theorem eq_of_reaches_end {α : Type} {step : α → α → Prop} (hunique : Relator.RightUnique step)
    {x y z : α}
    (hy : Relation.ReflTransGen step x y) (hz : Relation.ReflTransGen step x z)
    (hyend : ∀ w, ¬ step y w) (hzend : ∀ w, ¬ step z w) : y = z := by
  rcases Relation.ReflTransGen.total_of_right_unique hunique hy hz with h | h
  · rcases Relation.ReflTransGen.cases_head h with heq | ⟨w, hw, _⟩
    · exact heq
    · exact absurd hw (hyend w)
  · rcases Relation.ReflTransGen.cases_head h with heq | ⟨w, hw, _⟩
    · exact heq.symm
    · exact absurd hw (hzend w)

section Activations

variable {functions : Nat} {call : Invoke σ} {self : FunctionId}
  {effectAt : Activation → Option (Except Trap Effect)}

/-- An activation does not move on from its last instruction. -/
theorem not_moves_of_ends {last : Activation × Ambient σ} {r : Result σ}
    (h : Ends functions call self effectAt last r) (next : Activation × Ambient σ) :
    ¬ Moves functions call self effectAt last next := by
  intro hmove
  have hturn := turn_of_moves hmove
  rw [turn_of_ends h] at hturn
  cases hturn

/-- An activation stands at one call at most. -/
theorem Asks.unique {fuel : Nat} {state : Activation × Ambient σ} {w w' : Invocation σ}
    (h : Asks functions fuel effectAt state w) (h' : Asks functions fuel effectAt state w') :
    w = w' := by
  cases h with
  | call heffect hperform hcallee =>
    cases h' with
    | call heffect' hperform' hcallee' =>
      rw [heffect] at heffect'
      cases heffect'
      rw [hperform] at hperform'
      cases hperform'
      rw [hcallee] at hcallee'
      cases hcallee'
      rfl

end Activations

section Hosts

variable {d : Dispatcher σ} {call : Invoke σ} {args : List Argument}

/-- A native function goes on in one way only. -/
theorem hostMoves_unique : Relator.RightUnique (HostMoves d call args) := by
  intro before after after' h h'
  cases h with
  | write hwrite =>
    cases h' with
    | write hwrite' =>
      rw [hwrite] at hwrite'
      cases hwrite'
      rfl
  | locate =>
    cases h' with
    | locate => rfl
  | load hread =>
    cases h' with
    | load hread' =>
      rw [hread] at hread'
      cases hread'
      rfl
  | store hwrite =>
    cases h' with
    | store hwrite' =>
      rw [hwrite] at hwrite'
      cases hwrite'
      rfl
  | alloc halloc =>
    cases h' with
    | alloc halloc' =>
      rw [halloc] at halloc'
      cases halloc'
      rfl
    | refused halloc' =>
      rw [halloc] at halloc'
      cases halloc'
  | refused halloc =>
    cases h' with
    | alloc halloc' =>
      rw [halloc] at halloc'
      cases halloc'
    | refused halloc' =>
      rw [halloc] at halloc'
      cases halloc'
      rfl
  | call hpassed hcall =>
    cases h' with
    | call hpassed' hcall' =>
      rw [hpassed] at hpassed'
      cases hpassed'
      rw [hcall] at hcall'
      cases hcall'
      rfl

theorem not_hostMoves_of_ends {last : HostState σ} {r : Result σ} (h : HostEnds last r)
    (next : HostState σ) : ¬ HostMoves d call args last next := by
  intro hmove
  cases h with
  | finish => cases hmove
  | fail => cases hmove
  | mismatch hwrite =>
    cases hmove with
    | write hwrite' =>
      rw [hwrite] at hwrite'
      cases hwrite'

theorem hostEnds_unique {last : HostState σ} {r r' : Result σ} (h : HostEnds last r)
    (h' : HostEnds last r') : r = r' := by
  cases h with
  | finish =>
    cases h' with
    | finish => rfl
  | fail =>
    cases h' with
    | fail => rfl
  | mismatch hwrite =>
    cases h' with
    | mismatch hwrite' =>
      rw [hwrite] at hwrite'
      cases hwrite'
      rfl

end Hosts

section Invocations

variable {p : Program} {d : Dispatcher σ} {v : Invocation σ} {s s' : LoadedScript}
  {effectAt effectAt' : Activation → Option (Except Trap Effect)}
  {first first' : Activation × Ambient σ} {e e' : VmError}

/-- An invocation sets up one activation at most. -/
theorem Starts.unique (h : Starts p d v s effectAt first) (h' : Starts p d v s' effectAt' first') :
    s = s' ∧ effectAt = effectAt' ∧ first = first' := by
  have hscript := h.script
  rw [h'.script] at hscript
  cases hscript
  cases h with
  | interpreted _ hchoice _ hpush =>
    cases h' with
    | interpreted _ hchoice' _ hpush' =>
      rw [hchoice] at hchoice'
      cases hchoice'
      rw [hpush] at hpush'
      cases hpush'
      exact ⟨rfl, rfl, rfl⟩
    | compiled _ hchoice' _ =>
      rw [hchoice] at hchoice'
      cases hchoice'
  | compiled _ hchoice hpush =>
    cases h' with
    | interpreted _ hchoice' _ _ =>
      rw [hchoice] at hchoice'
      cases hchoice'
    | compiled _ hchoice' hpush' =>
      rw [hchoice] at hchoice'
      cases hchoice'
      rw [hpush] at hpush'
      cases hpush'
      exact ⟨rfl, rfl, rfl⟩

/-- An invocation that is refused sets up no activation. -/
theorem Refuses.not_starts (h : Refuses p d v s e) : ¬ Starts p d v s' effectAt first := by
  intro hstart
  have hscript := h.script
  rw [hstart.script] at hscript
  cases hscript
  cases h with
  | unverified _ hchoice hverdict =>
    cases hstart with
    | interpreted _ _ hverdict' _ =>
      rw [hverdict] at hverdict'
      cases hverdict'
    | compiled _ hchoice' _ =>
      rw [hchoice'] at hchoice
      cases hchoice
  | noRoom _ _ hroom =>
    cases hstart with
    | interpreted _ hchoice _ hpush =>
      rw [hchoice] at hroom
      simp only [hpush] at hroom
      cases hroom
    | compiled _ hchoice hpush =>
      rw [hchoice] at hroom
      simp only [hpush] at hroom
      cases hroom

/-- There is one reason to refuse an invocation at most. -/
theorem Refuses.unique (h : Refuses p d v s e) (h' : Refuses p d v s' e') : s = s' ∧ e = e' := by
  have hscript := h.script
  rw [h'.script] at hscript
  cases hscript
  cases h with
  | unverified _ hchoice hverdict =>
    cases h' with
    | unverified _ _ hverdict' =>
      rw [hverdict] at hverdict'
      cases hverdict'
      exact ⟨rfl, rfl⟩
    | noRoom _ hready _ => simp [hchoice, hverdict] at hready
  | noRoom _ hready hroom =>
    cases h' with
    | unverified _ hchoice hverdict => simp [hchoice, hverdict] at hready
    | noRoom _ _ hroom' =>
      rw [hroom] at hroom'
      cases hroom'
      exact ⟨rfl, rfl⟩

end Invocations

/-! ## Origins -/

/-- The activation that an invocation sets up has come to a state, and executes nothing more. -/
structure Halts (p : Program) (d : Dispatcher σ) (v : Invocation σ) (fuel : Nat)
    (s : LoadedScript) (effectAt : Activation → Option (Except Trap Effect))
    (last : Activation × Ambient σ) : Prop where
  fuel_eq : v.fuel = fuel + 1
  reached : ∃ first, Starts p d v s effectAt first ∧
    Reaches p.size (invoke p d fuel) v.id effectAt first last
  stays : ∀ next, ¬ Moves p.size (invoke p d fuel) v.id effectAt last next

/-- The raise of an abort: the abort itself, the instruction that raised it if one did, and the
memory and the state around at that moment. -/
structure Raise (σ : Type) where
  abort : Abort
  place : Option Location
  memory : Memory
  ambient : Ambient σ

/-- An invocation aborts because of a raise, under way at the given calls, the outermost first. -/
inductive AbortsBy (p : Program) (d : Dispatcher σ) :
    Invocation σ → List Location → Raise σ → Prop where
  /-- An instruction of its activation raises the abort. -/
  | instruction {v : Invocation σ} {fuel : Nat} {s : LoadedScript}
      {effectAt : Activation → Option (Except Trap Effect)} {act : Activation} {amb : Ambient σ}
      {i : Instr} {op : Opcode} {a : Abort} (hhalts : Halts p d v fuel s effectAt (act, amb))
      (hi : s.script.code[act.pc]? = some i) (hop : i.opcode? = some op)
      (heffect : effectAt act = some (.error (.abort a)))
      (hraises : Raises s.script act i op a) :
      AbortsBy p d v [] ⟨a, some ⟨v.id, act.pc⟩, act.memory, amb⟩
  /-- It is refused. -/
  | refused {v : Invocation σ} {s : LoadedScript} {e : VmError} (hrefused : Refuses p d v s e) :
      AbortsBy p d v [] ⟨.ofError e, none, v.memory, (d.dispatch v.id s.script v.ambient).2⟩
  /-- Its native function fails. -/
  | native {v : Invocation σ} {fuel : Nat} {n : Native} {last : HostState σ} {r : Result σ}
      {e : VmError} (hfuel : v.fuel = fuel + 1)
      (hnative : p.functions[v.id]? = some (.native n))
      (hreach : HostReaches d (invoke p d fuel) v.args (v.hostState n) last)
      (hend : HostEnds last r) (hfails : r.outcome = .aborted (.ofAbort (.ofError e) none)) :
      AbortsBy p d v [] ⟨.ofError e, none, last.memory, last.ambient⟩
  /-- Its activation stands at a call of an invocation that aborts. -/
  | call {v w : Invocation σ} {fuel : Nat} {s : LoadedScript}
      {effectAt : Activation → Option (Except Trap Effect)} {act : Activation} {amb : Ambient σ}
      {targets : List Target} {sites : List Location} {raise : Raise σ}
      (hhalts : Halts p d v fuel s effectAt (act, amb))
      (hcall : s.script.CallsAt act.pc targets)
      (hasks : Asks p.size fuel effectAt (act, amb) w)
      (hcallee : AbortsBy p d w sites raise) :
      AbortsBy p d v (⟨v.id, act.pc⟩ :: sites) raise

section Origins

variable {p : Program} {d : Dispatcher σ} {v : Invocation σ}

/-- Where the activation of an invocation halts is determined. -/
theorem Halts.unique {fuel fuel' : Nat} {s s' : LoadedScript}
    {effectAt effectAt' : Activation → Option (Except Trap Effect)}
    {last last' : Activation × Ambient σ} (h : Halts p d v fuel s effectAt last)
    (h' : Halts p d v fuel' s' effectAt' last') :
    fuel = fuel' ∧ effectAt = effectAt' ∧ last = last' := by
  obtain ⟨hfuel, ⟨first, hstart, hreach⟩, hstays⟩ := h
  obtain ⟨hfuel', ⟨first', hstart', hreach'⟩, hstays'⟩ := h'
  obtain rfl : fuel = fuel' := by omega
  obtain ⟨rfl, rfl, rfl⟩ := hstart.unique hstart'
  exact ⟨rfl, rfl, eq_of_reaches_end moves_unique hreach hreach' hstays hstays'⟩

theorem Halts.script {fuel : Nat} {s : LoadedScript}
    {effectAt : Activation → Option (Except Trap Effect)} {last : Activation × Ambient σ}
    (h : Halts p d v fuel s effectAt last) : p.functions[v.id]? = some (.script s) := by
  obtain ⟨first, hstart, _⟩ := h.reached
  exact hstart.script

/-- What is refused does not halt: it has not started. -/
theorem Refuses.not_halts {fuel : Nat} {s s' : LoadedScript} {e : VmError}
    {effectAt : Activation → Option (Except Trap Effect)} {last : Activation × Ambient σ}
    (h : Refuses p d v s e) : ¬ Halts p d v fuel s' effectAt last := by
  rintro ⟨_, ⟨first, hstart, _⟩, _⟩
  exact h.not_starts hstart

/-- An instruction that raises an abort makes no call. -/
theorem Asks.not_raises {functions fuel : Nat}
    {effectAt : Activation → Option (Except Trap Effect)} {act : Activation} {amb : Ambient σ}
    {w : Invocation σ} {a : Abort} (h : Asks functions fuel effectAt (act, amb) w) :
    effectAt act ≠ some (.error (.abort a)) := by
  intro heffect'
  cases h with
  | call heffect _ _ =>
    rw [heffect] at heffect'
    cases heffect'

/-- What an invocation aborts by is determined. -/
theorem AbortsBy.unique {sites sites' : List Location} {raise raise' : Raise σ}
    (h : AbortsBy p d v sites raise) (h' : AbortsBy p d v sites' raise') :
    sites' = sites ∧ raise' = raise := by
  induction h generalizing sites' raise' with
  | instruction hhalts _ _ heffect _ =>
    cases h' with
    | instruction hhalts' _ _ heffect' _ =>
      obtain ⟨rfl, rfl, hlast⟩ := hhalts.unique hhalts'
      cases hlast
      rw [heffect] at heffect'
      cases heffect'
      exact ⟨rfl, rfl⟩
    | refused hrefused => exact absurd hhalts hrefused.not_halts
    | native _ hnative _ _ _ =>
      rw [hhalts.script] at hnative
      cases hnative
    | call hhalts' _ hasks _ =>
      obtain ⟨rfl, rfl, hlast⟩ := hhalts.unique hhalts'
      cases hlast
      exact absurd heffect hasks.not_raises
  | refused hrefused =>
    cases h' with
    | instruction hhalts _ _ _ _ => exact absurd hhalts hrefused.not_halts
    | refused hrefused' =>
      obtain ⟨rfl, rfl⟩ := hrefused.unique hrefused'
      exact ⟨rfl, rfl⟩
    | native _ hnative _ _ _ =>
      rw [hrefused.script] at hnative
      cases hnative
    | call hhalts _ _ _ => exact absurd hhalts hrefused.not_halts
  | native hfuel hnative hreach hend hfails =>
    cases h' with
    | instruction hhalts _ _ _ _ =>
      rw [hhalts.script] at hnative
      cases hnative
    | refused hrefused =>
      rw [hrefused.script] at hnative
      cases hnative
    | native hfuel' hnative' hreach' hend' hfails' =>
      rw [hfuel] at hfuel'
      cases hfuel'
      rw [hnative] at hnative'
      cases hnative'
      obtain rfl := eq_of_reaches_end hostMoves_unique hreach hreach'
        (not_hostMoves_of_ends hend) (not_hostMoves_of_ends hend')
      rw [hostEnds_unique hend hend', hfails'] at hfails
      cases hfails
      exact ⟨rfl, rfl⟩
    | call hhalts _ _ _ =>
      rw [hhalts.script] at hnative
      cases hnative
  | call hhalts _ hasks _ ih =>
    cases h' with
    | instruction hhalts' _ _ heffect _ =>
      obtain ⟨rfl, rfl, hlast⟩ := hhalts.unique hhalts'
      cases hlast
      exact absurd heffect hasks.not_raises
    | refused hrefused => exact absurd hhalts hrefused.not_halts
    | native _ hnative _ _ _ =>
      rw [hhalts.script] at hnative
      cases hnative
    | call hhalts' _ hasks' hcallee' =>
      obtain ⟨rfl, rfl, hlast⟩ := hhalts.unique hhalts'
      cases hlast
      obtain rfl := hasks.unique hasks'
      obtain ⟨rfl, rfl⟩ := ih hcallee'
      exact ⟨rfl, rfl⟩

/-- The place that an abort is attributed to: the instruction that raised it, or else the innermost
call under way. -/
def attributed (place : Option Location) (sites : List Location) : Option Location :=
  place.or sites.getLast?

/-- One call further out nothing changes, unless there was no place yet. -/
theorem attributed_cons (place : Option Location) (site : Location) (sites : List Location) :
    attributed place (site :: sites) = (attributed place sites).or (some site) := by
  rw [attributed, attributed, Option.or_assoc]
  cases hlast : sites.getLast? <;> simp [List.getLast?_cons, hlast]

/-- No activation is set up for an invocation: it is refused, or its function is native. -/
def Unstarted (p : Program) (d : Dispatcher σ) (v : Invocation σ) : Prop :=
  (∃ s e, Refuses p d v s e) ∨ ∃ n, p.functions[v.id]? = some (.native n)

theorem Starts.not_unstarted {s : LoadedScript}
    {effectAt : Activation → Option (Except Trap Effect)} {first : Activation × Ambient σ}
    (h : Starts p d v s effectAt first) : ¬ Unstarted p d v := by
  rintro (⟨s', e, hrefused⟩ | ⟨n, hnative⟩)
  · exact hrefused.not_starts h
  · rw [h.script] at hnative
    cases hnative

/-- An invocation that aborts has set up an activation, and then the abort has a place; or it has
set up none, and then there is no place. -/
theorem AbortsBy.place_cases {sites : List Location} {raise : Raise σ}
    (h : AbortsBy p d v sites raise) :
    ((∃ s effectAt first, Starts p d v s effectAt first) ∧ attributed raise.place sites ≠ none) ∨
      Unstarted p d v ∧ attributed raise.place sites = none := by
  cases h with
  | instruction hhalts _ _ _ _ =>
    obtain ⟨first, hstart, _⟩ := hhalts.reached
    exact .inl ⟨⟨_, _, first, hstart⟩, nofun⟩
  | refused hrefused => exact .inr ⟨.inl ⟨_, _, hrefused⟩, rfl⟩
  | native _ hnative _ _ _ => exact .inr ⟨.inr ⟨_, hnative⟩, rfl⟩
  | call hhalts _ _ _ =>
    obtain ⟨first, hstart, _⟩ := hhalts.reached
    exact .inl ⟨⟨_, _, first, hstart⟩, by simp [attributed_cons]⟩

/-- There is no place just if there is no activation. -/
theorem AbortsBy.attributed_eq_none_iff {sites : List Location} {raise : Raise σ}
    (h : AbortsBy p d v sites raise) :
    (attributed raise.place sites = none ↔
        ¬ ∃ s effectAt first, Starts p d v s effectAt first) ∧
      (attributed raise.place sites = none ↔ Unstarted p d v) := by
  obtain ⟨hstarts, hplace⟩ | ⟨hunstarted, hnone⟩ := h.place_cases
  · obtain ⟨s, effectAt, first, hstart⟩ := hstarts
    constructor
    · exact iff_of_false hplace (not_not_intro ⟨s, effectAt, first, hstart⟩)
    · exact iff_of_false hplace hstart.not_unstarted
  · constructor
    · exact iff_of_true hnone fun ⟨_, _, _, hstart⟩ => hstart.not_unstarted hunstarted
    · exact iff_of_true hnone hunstarted

end Origins

/-! ## Records -/

namespace ScriptException

theorem attributeTo_ofAbort (a : Abort) (place : Option Location) (l : Location) :
    (ofAbort a place).attributeTo l = ofAbort a (place.or (some l)) := by
  cases place <;> rfl

end ScriptException

namespace ExceptionRecord

variable (x : ScriptException)

/-- A recorded exception counts as raised. -/
theorem isRaised_ofException : (ofException? (some x)).isRaised = true := by
  obtain ⟨reason, arg, place, payload⟩ := x
  cases reason <;> rfl

/-- Attribution of the record is attribution of the exception. -/
theorem attributeTo_ofException (l : Location) :
    (ofException? (some x)).attributeTo (some l) = ofException? (some (x.attributeTo l)) := by
  rw [attributeTo, isRaised_ofException]
  obtain ⟨reason, arg, place, payload⟩ := x
  cases place <;> rfl

/-- An exception that was recorded is taken as it was, and the record is empty again. -/
theorem take_ofException : (ofException? (some x)).take = (some x, {}) := by
  obtain ⟨reason, arg, place, payload⟩ := x
  cases reason <;> rfl

/-- A record that is filled by a raise and attributed to every call on the way out, the innermost
first, holds the abort at the place that it is attributed to. -/
theorem record_of_sites (a : Abort) (place : Option Location) (sites : List Location) :
    sites.foldr (fun site record => record.attributeTo (some site))
        (({} : ExceptionRecord).raise a place) =
      ofException? (some (.ofAbort a (attributed place sites))) := by
  induction sites with
  | nil => cases place <;> rfl
  | cons site rest ih =>
    rw [List.foldr_cons, ih, attributeTo_ofException, ScriptException.attributeTo_ofAbort,
      attributed_cons]

end ExceptionRecord

/-! ## Aborted runs -/

/-- What is reported of a raise: its abort at the place that it is attributed to.  Since the raise
only frames were popped. -/
structure Reports (v : Invocation σ) (sites : List Location) (raise : Raise σ) (r : Result σ) :
    Prop where
  outcome : r.outcome = .aborted (.ofAbort raise.abort (attributed raise.place sites))
  memory : r.memory = raise.memory
  ambient : r.ambient = { raise.ambient with frames := v.ambient.frames }

/-- An activation hands an abort on: it attributes it to its call, and its frame is popped. -/
theorem Reports.handOn {v w : Invocation σ} {sites : List Location} {raise : Raise σ}
    {r : Result σ} {x : ScriptException} (h : Reports w sites raise r)
    (hx : r.outcome = .aborted x) (site : Location) (slots : ReturnSlots) :
    Reports v (site :: sites) raise ⟨.aborted (x.attributeTo site), slots, r.memory,
      { r.ambient with frames := v.ambient.frames }⟩ := by
  have hreported := h.outcome
  rw [hx, Outcome.aborted.injEq] at hreported
  refine ⟨?_, h.memory, ?_⟩
  · rw [hreported, ScriptException.attributeTo_ofAbort, attributed_cons]
  · rw [h.ambient]

section Runs

variable {p : Program} {d : Dispatcher σ} {I : σ → Prop} (hd : d.Policy p I)

/-- A native function that fails gives a payload, and no place. -/
theorem fails_of_hostEnds {last : HostState σ} {r : Result σ} {x : ScriptException}
    (h : HostEnds last r) (hx : r.outcome = .aborted x) :
    r.memory = last.memory ∧ ∃ e, r.outcome = .aborted (.ofAbort (.ofError e) none) := by
  cases h with
  | finish => cases hx
  | fail => exact ⟨rfl, _, rfl⟩
  | mismatch hwrite => exact ⟨rfl, _, rfl⟩

include hd

/-- A run that is aborted aborts by a raise, and reports it.  The induction is over the fuel: what
an activation hands on was raised in an invocation that it made, with less fuel. -/
theorem abortsBy_of_run {fuel : Nat} {v : Invocation σ} (hfuel : v.fuel = fuel)
    (hI : I v.ambient.tier) {r : Result σ} {x : ScriptException} (h : v.run p d = .ok r)
    (hx : r.outcome = .aborted x) :
    ∃ sites raise, AbortsBy p d v sites raise ∧ Reports v sites raise r := by
  induction fuel generalizing v r x with
  | zero =>
    obtain ⟨fuel, hfuel', _⟩ := Invocation.run_ok h
    omega
  | succ n ih =>
    obtain ⟨fuel, hfuel', hrun⟩ := Invocation.run_ok h
    obtain rfl : fuel = n := by omega
    obtain ⟨native, last, hnative, hreach, hend⟩ | ⟨s, e, hrefused, rfl⟩ |
      ⟨s, effectAt, first, last, r', hstart, hreach, hend, rfl⟩ := hrun
    · obtain ⟨hmemory, e, hfails⟩ := fails_of_hostEnds hend hx
      have hframes := (hostReaches_kept hd.keeps (invoke_kept hd.keeps fuel) hreach).1
      refine ⟨[], _, .native hfuel hnative hreach hend hfails, hfails, hmemory, ?_⟩
      rw [hostEnds_ambient hend, ← show last.ambient.frames = v.ambient.frames from hframes]
    · exact ⟨[], _, .refused hrefused, rfl, rfl, rfl⟩
    · rw [leaveFrame_eq hd hstart hreach hend] at hx ⊢
      obtain ⟨hverify, hmode, hfits, hIfirst⟩ := hstart.mode hd hI
      have hfit := fits_of_reaches hmode hverify hfits hreach
      have hhalts : Halts p d v fuel s effectAt last :=
        ⟨hfuel, ⟨first, hstart, hreach⟩, not_moves_of_ends hend⟩
      cases hend with
      | falls heffect => cases hx
      | leaves heffect hperform => cases hx
      | raises heffect =>
        obtain ⟨op, i, hstands, hraises⟩ := hmode.sound hverify hfit heffect
        exact ⟨[], _, .instruction hhalts hstands.instr hstands.opcode heffect hraises,
          rfl, rfl, rfl⟩
      | propagates heffect hperform hcallee hcall haborted =>
        obtain ⟨_, _, _, rfl, rfl, _, _⟩ := perform_eq_call hperform
        obtain ⟨_, _, _, _, _, hcallsAt, _⟩ := hmode.sound hverify hfit heffect
        have hIamb := (reaches_kept hd.keeps (invoke_kept hd.keeps fuel) hreach).2 hIfirst
        obtain ⟨sites, raise, hcallee', hreports⟩ :=
          ih (v := ⟨fuel, _, _, _, _, _⟩) rfl hIamb hcall haborted
        exact ⟨_, raise, .call hhalts hcallsAt (.call heffect hperform hcallee) hcallee',
          hreports.handOn haborted _ _⟩

end Runs

/-! ## Both ends together -/

/-- A run that is aborted, whichever of its activations are interpreted and however deep they are
nested, has one origin: an instruction that raised the abort, an invocation that was refused, or a
native function that failed, below calls at each of which an activation stands for good.

* Reason, argument and payload are those that were raised.
* The place is the instruction that raised the abort.  If none did, it is the innermost call.  There
  is no place just if the invocation set up no activation: it was refused, or its function is
  native.
* Nothing is executed after the raise: the memory is as it was then, and so is the state around, up
  to the frames that were popped.
* A record that takes the raise, and an attribution from each call on the way out, is the one that
  is left behind; it gives back the exception. -/
theorem abort_attribution {p : Program} {d : Dispatcher σ} {I : σ → Prop} (hd : d.Policy p I)
    {v : Invocation σ} (hI : I v.ambient.tier) {r : Result σ} (h : v.run p d = .ok r)
    {x : ScriptException} (hx : r.outcome = .aborted x) :
    ∃ sites raise, AbortsBy p d v sites raise ∧
      (∀ sites' raise', AbortsBy p d v sites' raise' → sites' = sites ∧ raise' = raise) ∧
      x.reason = raise.abort.reason ∧ x.arg = raise.abort.arg ∧
      x.payload = raise.abort.payload ∧
      x.place = raise.place.or sites.getLast? ∧
      (x.place = none ↔ ¬ ∃ s effectAt first, Starts p d v s effectAt first) ∧
      (x.place = none ↔ Unstarted p d v) ∧
      r.memory = raise.memory ∧
      r.ambient = { raise.ambient with frames := v.ambient.frames } ∧
      sites.foldr (fun site record => record.attributeTo (some site))
        (({} : ExceptionRecord).raise raise.abort raise.place) = r.outcome.toRecord ∧
      r.outcome.toRecord.take = (some x, {}) := by
  obtain ⟨sites, raise, horigin, houtcome, hmemory, hambient⟩ := abortsBy_of_run hd rfl hI h hx
  obtain rfl : x = .ofAbort raise.abort (attributed raise.place sites) := by
    rw [hx, Outcome.aborted.injEq] at houtcome
    exact houtcome
  have hrecord : r.outcome.toRecord =
      .ofException? (some (.ofAbort raise.abort (attributed raise.place sites))) := by
    rw [hx]
    rfl
  obtain ⟨hstarts, hunstarted⟩ := horigin.attributed_eq_none_iff
  refine ⟨sites, raise, horigin, fun _ _ => horigin.unique, rfl, rfl, rfl, rfl, hstarts,
    hunstarted, hmemory, hambient, ?_, ?_⟩
  · rw [hrecord, ExceptionRecord.record_of_sites]
  · rw [hrecord, ExceptionRecord.take_ofException]

/-- A native function that fails, a script that calls it, and a script that calls that script. -/
def failsInside : Program where
  functions := #[
    .native (Action.native "boom" [.fail (.native "boom")] 0),
    .script (Script.load {
      name := "inner"
      code := #[.make .parami 7 0 0, .make .callK 0 1 0]
      konst := { pointers := #[functionAddress 0] }
      maxParam := 1 }),
    .script (Script.load {
      name := "outer"
      code := #[.make .callK 0 0 0]
      konst := { pointers := #[functionAddress 1] } })]

/-- Compile the outer script, and interpret the inner one. -/
def Dispatcher.compilingOuter : Dispatcher Unit where
  choose id s _ t := (if id = 2 then (compile id s false).toOption else none, t)
  install _ t := t
  restore _ t := t

theorem Dispatcher.compilingOuter_policy (p : Program) :
    Dispatcher.compilingOuter.Policy p fun _ => True where
  lowered {id s c t code} _ hscript hcode := by
    by_cases hid : id = 2
    · apply (Dispatcher.compiling_policy p).lowered (c := c) (t := t) trivial hscript
      simpa [compilingOuter, compiling, hid] using hcode
    · simp [compilingOuter, hid] at hcode
  choose _ _ := trivial
  install _ := trivial
  restore _ _ := trivial

/-- The outer script is called. -/
def callsOuter : Invocation Unit where
  fuel := 8
  id := 2
  args := []
  slots := .fresh []
  memory := {}
  ambient := { tier := () }

/-- The failure is attributed to the call of the inner script, not to that of the outer one. -/
theorem abort_attribution_failsInside :
    ∃ sites raise, AbortsBy failsInside .compilingOuter callsOuter sites raise ∧
      raise.abort.payload = some (.native "boom") ∧
      raise.place.or sites.getLast? = some ⟨1, 1⟩ := by
  have houtcome : (callsOuter.run failsInside .compilingOuter).toOption.map (·.outcome) =
      some (.aborted
        { reason := .other, place := some ⟨1, 1⟩, payload := some (.native "boom") }) := by
    decide +kernel
  cases hrun : callsOuter.run failsInside .compilingOuter with
  | error st =>
    rw [hrun] at houtcome
    cases houtcome
  | ok r =>
    rw [hrun] at houtcome
    obtain ⟨sites, raise, horigin, _, _, _, hpayload, hplace, _⟩ :=
      abort_attribution (Dispatcher.compilingOuter_policy _) trivial hrun (Option.some.inj houtcome)
    exact ⟨sites, raise, horigin, hpayload.symm, hplace.symm⟩

end TierVm
