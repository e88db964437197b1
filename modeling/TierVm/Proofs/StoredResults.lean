import TierVm.Proofs.LoweringTotal
import TierVm.Proofs.ResultCells

/-!
# What a callee stores

A callee writes into the slots of its caller while it runs: a script with its returns, a native
function step by step.  This module follows the slots along such a run and says what they hold at
the end.

* `Collects` is a path along which something is collected at every step.  `Invocation.Delivers` are
  the values that a run stores, in order, with the slots they are meant for.
* `ReturnSlots.Takes` is one store.  Only values of the class of the slot are stored:
  `Starts.typed` for scripts, by way of the code they are lowered to.
* `lastStored` is the last value stored in a slot, and `ReturnSlots.Collected` is the invariant: a
  slot holds the last value stored there, or else what it held before.
* `collected_of_delivers` is the result for a whole run.
-/

namespace TierVm

variable {σ : Type}

/-! ## Paths that collect -/

/-- A path, with what is collected at the states that it leaves. -/
inductive Collects {α β : Type} (step : α → α → Prop) (emit : α → Option β) :
    α → List β → α → Prop where
  | refl (x : α) : Collects step emit x [] x
  | tail {x y z : α} {l : List β} (hpath : Collects step emit x l y) (hstep : step y z) :
      Collects step emit x (l ++ (emit y).toList) z

section

variable {α β : Type} {step : α → α → Prop} {emit : α → Option β} {x y : α}

theorem exists_collects (h : Relation.ReflTransGen step x y) :
    ∃ l, Collects step emit x l y := by
  induction h with
  | refl => exact ⟨[], .refl x⟩
  | tail _ hstep ih =>
    obtain ⟨l, hpath⟩ := ih
    exact ⟨_, .tail hpath hstep⟩

theorem Collects.reaches {l : List β} (h : Collects step emit x l y) :
    Relation.ReflTransGen step x y := by
  induction h with
  | refl => exact .refl
  | tail _ hstep ih => exact .tail ih hstep

end

/-- A value that is stored, with its slot. -/
abbrev Store := Nat × Value

/-- The value that an effect leaves in a slot of the caller. -/
def Effect.stored? : Effect → Option Store
  | .give slot (some v) _ => some (slot, v)
  | _ => none

/-- The value that the instruction leaves at which an activation stands. -/
def storedAt (effectAt : Activation → Option (Except Trap Effect)) (act : Activation) :
    Option Store :=
  match effectAt act with
  | some (.ok e) => e.stored?
  | _ => none

/-- The value that a native function writes next. -/
def HostProgram.stored? : HostProgram → Option Store
  | .write slot v _ => some (slot, v)
  | _ => none

/-- The values that an invocation stores in the slots of its caller, in order, on its way to a
result. -/
inductive Invocation.Delivers (p : Program) (d : Dispatcher σ) :
    Invocation σ → List Store → Result σ → Prop where
  | script {v : Invocation σ} {fuel : Nat} {s : LoadedScript}
      {effectAt : Activation → Option (Except Trap Effect)} {first last : Activation × Ambient σ}
      {stores : List Store} {r : Result σ} (hfuel : v.fuel = fuel + 1)
      (hstart : Starts p d v s effectAt first)
      (hpath : Collects (Moves p.size (invoke p d fuel) v.id effectAt)
        (fun state => storedAt effectAt state.1) first stores last)
      (hend : Ends p.size (invoke p d fuel) v.id effectAt last r) :
      Delivers p d v (stores ++ (storedAt effectAt last.1).toList) (leaveFrame r)
  | native {v : Invocation σ} {fuel : Nat} {n : Native} {last : HostState σ}
      {stores : List Store} {r : Result σ} (hfuel : v.fuel = fuel + 1)
      (hnative : p.functions[v.id]? = some (.native n))
      (hpath : Collects (HostMoves d (invoke p d fuel) v.args)
        (fun state => state.program.stored?) (v.hostState n) stores last)
      (hend : HostEnds last r) : Delivers p d v stores r

/-- A run that is not aborted delivers values. -/
theorem Invocation.exists_delivers {p : Program} {d : Dispatcher σ} {v : Invocation σ}
    {r : Result σ} {count : Nat} (h : v.run p d = .ok r) (hfinished : r.outcome = .finished count) :
    ∃ stores, v.Delivers p d stores r := by
  obtain ⟨fuel, hfuel, ⟨n, last, hnative, hreach, hend⟩ | ⟨s, e, _, rfl⟩ |
    ⟨s, effectAt, first, last, r', hstart, hreach, hend, rfl⟩⟩ := Invocation.run_ok h
  · obtain ⟨stores, hpath⟩ := exists_collects hreach
    exact ⟨stores, .native hfuel hnative hpath hend⟩
  · cases hfinished
  · obtain ⟨stores, hpath⟩ := exists_collects hreach
    exact ⟨_, .script hfuel hstart hpath hend⟩

/-! ## Only values of the right class are stored -/

/-- A value that is given back has the class of its slot. -/
def GivesTyped (act : Activation) (m : Except Trap Effect) : Prop :=
  ∀ (slot : Nat) (v : Value) (last : Bool), m = .ok (.give slot (some v) last) →
    act.slots.class? slot = some v.regClass

section Typed

variable {act : Activation}

theorem GivesTyped.bind {α : Type} {m : Except Trap α} {f : α → Except Trap Effect}
    (hf : ∀ x, GivesTyped act (f x)) : GivesTyped act (m >>= f) := by
  intro slot v last h
  obtain ⟨x, _, hx⟩ := bind_eq_ok_iff.1 h
  exact hf x slot v last hx

theorem GivesTyped.error (trap : Trap) : GivesTyped act (.error trap) := by
  intro _ _ _ h
  cases h

/-- An effect that leaves nothing. -/
theorem GivesTyped.silent {e : Effect} (he : e.stored? = none) : GivesTyped act (.ok e) := by
  intro _ _ _ h
  cases h
  cases he

theorem give_typed (slot : Nat) (v : Value) (last : Bool) :
    GivesTyped act (act.give slot v last) := by
  intro slot' v' last' h
  unfold Activation.give at h
  split at h
  · rename_i hclass
    cases h
    exact hclass
  · cases h

/-- Lowered operations give back values of the right class. -/
theorem lowered_typed (o : Lowered.Op) : GivesTyped act (Lowered.step act o) := by
  cases o with
  | ret slot value last =>
    simp only [Lowered.step]
    split
    · exact .bind fun v => give_typed slot v last
    · exact .silent rfl
  | nop | jump target | retNil => exact .silent rfl
  | branch test yes no => exact .bind fun _ => .silent rfl
  | checkBound index limit =>
    refine .bind fun _ => .bind fun _ => ?_
    unfold Activation.checkBound
    split
    · exact .error _
    · exact .silent rfl
  | throw object => exact .bind fun _ => .error _
  | setInt dst src | setFloat dst src | setString dst src | setPointer dst src =>
    exact .bind fun _ => .silent rfl
  | intOp op dst l r | floatOp op dst l r =>
    refine .bind fun _ => .bind fun _ => ?_
    split
    · exact .silent rfl
    · exact .error _
  | intUnary op dst src | flop code dst src => exact .bind fun _ => .silent rfl
  | load w dst base offset =>
    refine .bind fun _ => .bind fun _ => ?_
    unfold Activation.load
    split
    · exact .error _
    · split
      · exact .silent rfl
      · exact .error _
  | store w base src offset =>
    refine .bind fun _ => .bind fun _ => .bind fun _ => ?_
    unfold Activation.store
    split
    · exact .error _
    · exact .silent rfl
  | convert kind dst src => cases kind <;> exact .bind fun _ => .silent rfl
  | param slot value => exact .bind fun _ => .silent rfl
  | call callee first count targets =>
    refine .bind fun _ => ?_
    unfold Lowered.call
    split
    · exact .error _
    · exact .silent rfl
  | alloc dst size =>
    refine .bind fun _ => ?_
    unfold Activation.alloc
    split
    · exact .silent rfl
    · exact .error _
  | concat dst l r | movePointer dst base offset | distance dst l r =>
    exact .bind fun _ => .bind fun _ => .silent rfl
  | length dst src => exact .bind fun _ => .silent rfl

/-- What is stored at the states of an activation that an invocation has set up has the class of its
slot.  The interpreter only runs verified scripts, and gives back what the lowered code would. -/
theorem Starts.typed {p : Program} {d : Dispatcher σ} {v : Invocation σ} {s : LoadedScript}
    {effectAt : Activation → Option (Except Trap Effect)} {first last : Activation × Ambient σ}
    {functions : Nat} {call : Invoke σ} {self : FunctionId} (h : Starts p d v s effectAt first)
    (hreach : Reaches functions call self effectAt first last) {outcome : Except Trap Effect}
    (houtcome : effectAt last.1 = some outcome) : GivesTyped last.1 outcome := by
  cases h with
  | interpreted hscript hchoice hverdict hpush =>
    rw [s.verdict_eq] at hverdict
    have hfit := fits_of_reaches .interpreted hverdict (fits_start hverdict hpush _ _) hreach
    obtain ⟨ops, hlower, _⟩ := lowerCode_found hverdict
    have hlowered := executeAt_eq hverdict hlower hfit
    rw [houtcome, Option.map_some, executeAt, Option.map_eq_some_iff] at hlowered
    obtain ⟨o, _, ho⟩ := hlowered
    rintro slot w final rfl
    exact lowered_typed o slot w final ho
  | compiled hscript hchoice hpush =>
    rw [executeAt, Option.map_eq_some_iff] at houtcome
    obtain ⟨o, _, rfl⟩ := houtcome
    exact lowered_typed o

end Typed

/-! ## One store -/

/-- Slots take a value that is stored.  A slot that the caller did not ask for is ignored. -/
inductive ReturnSlots.Takes : ReturnSlots → Option Store → ReturnSlots → Prop where
  | nothing (r : ReturnSlots) : Takes r none r
  | ignored {r : ReturnSlots} {k : Nat} {v : Value} (hclass : r.class? k = none) :
      Takes r (some (k, v)) r
  | stored {r : ReturnSlots} {k : Nat} {v : Value} (hclass : r.class? k = some v.regClass) :
      Takes r (some (k, v)) (r.set k v)

/-- The slots of the caller behind an effect. -/
def Step.slots : Step → ReturnSlots
  | .next act _ => act.slots
  | .call act _ _ _ _ => act.slots
  | .leave act _ => act.slots

theorem takes_of_perform {act : Activation} {e : Effect} {next : Step}
    (htyped : GivesTyped act (.ok e)) (h : act.perform e = .ok next) :
    act.slots.Takes e.stored? next.slots := by
  cases e with
  | give slot v last =>
    have hslots : next.slots = v.elim act.slots (act.slots.set slot) := by
      simp only [Activation.perform, Except.ok.injEq] at h
      subst h
      cases last <;> rfl
    rw [hslots]
    cases v with
    | none => exact .nothing _
    | some v => exact .stored (htyped slot v last rfl)
  | put index v | store address bytes | param slot q =>
    simp only [Activation.perform] at h
    split at h
    · cases h
      exact .nothing _
    · cases h
  | alloc index size =>
    simp only [Activation.perform] at h
    split at h
    · cases h
    · split at h
      · cases h
        exact .nothing _
      · cases h
  | call callee first count targets cells =>
    simp only [Activation.perform] at h
    split at h
    · cases h
      exact .nothing _
    · cases h
  | goto pc backward | leave =>
    cases h
    exact .nothing _

section Steps

variable {functions : Nat} {call : Invoke σ} {self : FunctionId}
  {effectAt : Activation → Option (Except Trap Effect)}

theorem takes_of_moves {before after : Activation × Ambient σ}
    (htyped : ∀ {outcome}, effectAt before.1 = some outcome → GivesTyped before.1 outcome)
    (h : Moves functions call self effectAt before after) :
    before.1.slots.Takes (storedAt effectAt before.1) after.1.slots := by
  cases h with
  | next heffect hperform =>
    simp only [storedAt, heffect]
    exact takes_of_perform (htyped heffect) hperform
  | call heffect hperform _ _ _ =>
    simp only [storedAt, heffect]
    exact takes_of_perform (htyped heffect) hperform

theorem takes_of_ends {last : Activation × Ambient σ} {r : Result σ}
    (htyped : ∀ {outcome}, effectAt last.1 = some outcome → GivesTyped last.1 outcome)
    (h : Ends functions call self effectAt last r) :
    last.1.slots.Takes (storedAt effectAt last.1) r.slots := by
  cases h with
  | falls heffect =>
    simp only [storedAt, heffect]
    exact .nothing _
  | raises heffect =>
    simp only [storedAt, heffect]
    exact .nothing _
  | leaves heffect hperform =>
    simp only [storedAt, heffect]
    exact takes_of_perform (htyped heffect) hperform
  | propagates heffect hperform _ _ _ =>
    simp only [storedAt, heffect]
    exact takes_of_perform (htyped heffect) hperform

theorem takes_of_hostMoves {d : Dispatcher σ} {args : List Argument} {before after : HostState σ}
    (h : HostMoves d call args before after) :
    before.slots.Takes before.program.stored? after.slots := by
  cases h with
  | write hwrite =>
    unfold ReturnSlots.write at hwrite
    split at hwrite
    · rename_i hclass
      cases hwrite
      exact .ignored hclass
    · rename_i cls hclass
      split at hwrite
      · rename_i hcls
        cases hwrite
        rw [hcls] at hclass
        exact .stored hclass
      · cases hwrite
  | _ => exact .nothing _

end Steps

/-! ## Stores along a path -/

/-- The last value stored in a slot. -/
def lastStored (stores : List Store) (k : Nat) : Option Value :=
  (stores.reverse.find? (·.1 = k)).map (·.2)

@[simp] theorem lastStored_nil (k : Nat) : lastStored [] k = none := rfl

theorem lastStored_concat (stores : List Store) (j : Nat) (v : Value) (k : Nat) :
    lastStored (stores ++ [(j, v)]) k = if j = k then some v else lastStored stores k := by
  rw [lastStored, List.reverse_append, List.reverse_singleton, List.singleton_append,
    List.find?_cons]
  by_cases hjk : j = k
  · simp [hjk]
  · simp [hjk, lastStored]

namespace ReturnSlots

/-- Every slot has a cell of its own. -/
def Separate (r : ReturnSlots) : Prop :=
  ∀ i < r.size, ∀ j < r.size, r.cellOf[i]? = r.cellOf[j]? → i = j

/-- Slots after values were stored in them: the cells and classes are as before, and a slot with a
cell of its own holds the last value stored there, or else what it held. -/
structure Collected (r : ReturnSlots) (stores : List Store) (r' : ReturnSlots) : Prop where
  cellOf_eq : r'.cellOf = r.cellOf
  class?_eq : ∀ k, r'.class? k = r.class? k
  get?_eq : r.Separate → ∀ k < r.size, r'.get? k = (lastStored stores k).or (r.get? k)

theorem Collected.refl (r : ReturnSlots) : r.Collected [] r where
  cellOf_eq := rfl
  class?_eq _ := rfl
  get?_eq _ _ _ := by simp

theorem cellOf_set (r : ReturnSlots) (i : Nat) (v : Value) : (r.set i v).cellOf = r.cellOf := by
  unfold set
  split <;> rfl

/-- One store more. -/
theorem Collected.takes {r r' r'' : ReturnSlots} {stores : List Store} {store : Option Store}
    (h : r.Collected stores r') (htakes : r'.Takes store r'') :
    r.Collected (stores ++ store.toList) r'' := by
  cases htakes with
  | nothing => simpa using h
  | @ignored k v hclass =>
    refine ⟨h.cellOf_eq, h.class?_eq, ?_⟩
    intro hseparate j hj
    have hne : k ≠ j := by
      rintro rfl
      obtain ⟨cls, hcls⟩ := class?_eq_some hj
      rw [h.class?_eq, hcls] at hclass
      cases hclass
    rw [Option.toList_some, lastStored_concat, if_neg hne]
    exact h.get?_eq hseparate j hj
  | @stored k v hclass =>
    have hsize : r'.size = r.size := by rw [size, size, h.cellOf_eq]
    have hk : k < r'.size := lt_size_of_class? hclass
    have hwrite : r'.write k v = .ok (r'.set k v) := by
      rw [write, hclass]
      simp
    refine ⟨?_, ?_, ?_⟩
    · rw [cellOf_set, h.cellOf_eq]
    · intro j
      rw [class?_write hwrite, h.class?_eq]
    · intro hseparate j hj
      rw [Option.toList_some, lastStored_concat, get?_set hk, h.cellOf_eq]
      by_cases hkj : k = j
      · rw [if_pos (by rw [hkj]), if_pos hkj, Option.some_or]
      · have hcells : r.cellOf[j]? ≠ r.cellOf[k]? := by
          intro hcells
          exact hkj (hseparate j hj k (by omega) hcells).symm
        rw [if_neg hcells, if_neg hkj]
        exact h.get?_eq hseparate j hj

end ReturnSlots

/-- Slots along a path, each step of which stores what is collected there. -/
theorem Collects.collected {α : Type} {step : α → α → Prop} {emit : α → Option Store}
    (slotsOf : α → ReturnSlots) {x y : α} {stores : List Store}
    (hstep : ∀ {y z}, Relation.ReflTransGen step x y → step y z →
      (slotsOf y).Takes (emit y) (slotsOf z))
    (h : Collects step emit x stores y) : (slotsOf x).Collected stores (slotsOf y) := by
  induction h with
  | refl => exact .refl _
  | tail hpath hmove ih => exact ih.takes (hstep hpath.reaches hmove)

theorem Starts.slots_eq {p : Program} {d : Dispatcher σ} {v : Invocation σ} {s : LoadedScript}
    {effectAt : Activation → Option (Except Trap Effect)} {first : Activation × Ambient σ}
    (h : Starts p d v s effectAt first) : first.1.slots = v.slots := by
  cases h <;> rfl

theorem slots_leaveFrame (r : Result σ) : (leaveFrame r).slots = r.slots := by
  unfold leaveFrame
  split
  · rfl
  · split <;> rfl

/-- What the slots of the caller hold behind a whole run. -/
theorem collected_of_delivers {p : Program} {d : Dispatcher σ} {v : Invocation σ}
    {stores : List Store} {r : Result σ} (h : v.Delivers p d stores r) :
    v.slots.Collected stores r.slots := by
  cases h with
  | script hfuel hstart hpath hend =>
    have hmoved := hpath.collected (fun state => state.1.slots) fun hreach hmove =>
      takes_of_moves (fun houtcome => hstart.typed hreach houtcome) hmove
    rw [← hstart.slots_eq, slots_leaveFrame]
    exact hmoved.takes (takes_of_ends (fun houtcome => hstart.typed hpath.reaches houtcome) hend)
  | native hfuel hnative hpath hend =>
    have hmoved := hpath.collected HostState.slots fun _ hmove => takes_of_hostMoves hmove
    cases hend <;> exact hmoved

end TierVm
