import TierVm.Exec.Record
import TierVm.Proofs.Attribution

/-!
# The record of the caller

The outcome of an invocation says how it ends.  The caller itself learns of it from the exception
record that it has provided, and that every call in between has handed on.

* `Outcome.Leaves` says what a record holds behind an outcome.  After an abort it holds the
  exception.  Only the payload may be another one: if the exception has none, that of the record
  before may have stayed.
* `step_fills`: guards in compiled code raise no payload, so what they leave of a record is all that
  they could have written, but for a payload that was there before.
* `activationRecord_leaves` follows one activation and `invokeRecord_leaves` whole invocations, by
  induction over the fuel.
* `invokeInto_leaves` is the result: whoever provides a record in which nothing is raised finds the
  outcome in it.
-/

namespace TierVm

variable {σ : Type}

/-! ## Aborts without a payload -/

/-- What an instruction comes to carries no payload, if it is an abort. -/
def Bare {α : Type} (outcome : Except Trap α) : Prop :=
  ∀ a, outcome = .error (.abort a) → a.payload = none

namespace Bare

variable {α β : Type} {m : Except Trap α}

theorem ok (x : α) : Bare (.ok x) := by
  intro a h
  cases h

theorem stop (s : Stop) : Bare (.error (.stop s) : Except Trap α) := by
  intro a h
  cases h

theorem abortWith (reason : Reason) (arg : Int32) :
    Bare (TierVm.abortWith reason arg : Except Trap α) := by
  intro a h
  cases h
  rfl

theorem bind {f : α → Except Trap β} (hm : Bare m) (hf : ∀ x, Bare (f x)) : Bare (m >>= f) := by
  intro a h
  cases m with
  | error t =>
    cases h
    exact hm a rfl
  | ok x => exact hf x a h

theorem map (hm : Bare m) (f : α → β) : Bare (m.map f) := by
  intro a h
  cases m with
  | error t =>
    cases h
    exact hm a rfl
  | ok x => cases h

theorem inRange (x? : Option α) : Bare (TierVm.inRange x?) := by
  cases x? with
  | none => exact .stop _
  | some x => exact .ok x

end Bare

namespace Lowered

variable {act : Activation}

/-- Reading an argument, a register or a constant, can only stop. -/
theorem bare_arg {α : Type} {read : Arg α → Except Trap α} (hreg : ∀ i, Bare (read (.reg i)))
    (himm : ∀ x, read (.imm x) = .ok x) (arg : Arg α) : Bare (read arg) := by
  cases arg with
  | reg i => exact hreg i
  | imm x =>
    rw [himm]
    exact .ok x

theorem bare_intArg (arg : Arg Int32) : Bare (intArg act arg) :=
  bare_arg (fun _ => .inRange _) (fun _ => rfl) arg

theorem bare_floatArg (arg : Arg Float) : Bare (floatArg act arg) :=
  bare_arg (fun _ => .inRange _) (fun _ => rfl) arg

theorem bare_stringArg (arg : Arg String) : Bare (stringArg act arg) :=
  bare_arg (fun _ => .inRange _) (fun _ => rfl) arg

theorem bare_pointerArg (arg : Arg Address) : Bare (pointerArg act arg) :=
  bare_arg (fun _ => .inRange _) (fun _ => rfl) arg

theorem Operand.bare_eval (v : Operand) : Bare (v.eval act) := by
  cases v with
  | int arg => exact (bare_intArg arg).map _
  | float arg => exact (bare_floatArg arg).map _
  | string arg => exact (bare_stringArg arg).map _
  | pointer arg => exact (bare_pointerArg arg).map _

theorem Operand.bare_param (v : Operand) : Bare (v.param act) := by
  unfold Operand.param
  split
  · exact Bare.map (.inRange _) _
  · exact v.bare_eval.map _

theorem Test.bare_eval (t : Test) : Bare (t.eval act) := by
  cases t with
  | int cmp l r => exact (bare_intArg l).bind fun _ => (bare_intArg r).bind fun _ => .ok _
  | float cmp approx l r =>
    exact (bare_floatArg l).bind fun _ => (bare_floatArg r).bind fun _ => .ok _
  | string flags l r =>
    exact (bare_stringArg l).bind fun _ => (bare_stringArg r).bind fun _ => .ok _
  | pointer l r =>
    exact (bare_pointerArg l).bind fun _ => (bare_pointerArg r).bind fun _ => .ok _
  | differs index negate value => exact .bind (.inRange _) fun _ => .ok _

theorem bare_checkBound (index limit : Int32) : Bare (act.checkBound index limit) := by
  unfold Activation.checkBound
  split
  · exact .abortWith _ _
  · exact .ok _

theorem bare_load (w : Width) (dst : Nat) (base : Address) (offset : Int32) :
    Bare (act.load w dst base offset) := by
  unfold Activation.load
  split
  · exact .abortWith _ _
  · split
    · exact .ok _
    · exact .stop _

theorem bare_store (w : Width) (base : Address) (offset : Int32) (v : Value) :
    Bare (Activation.store w base offset v) := by
  unfold Activation.store
  split
  · exact .abortWith _ _
  · exact .ok _

theorem bare_alloc (dst : Nat) (size : Int32) : Bare (Activation.alloc dst size) := by
  unfold Activation.alloc
  split
  · exact .ok _
  · exact .abortWith _ _

theorem bare_give (slot : Nat) (v : Value) (last : Bool) : Bare (act.give slot v last) := by
  unfold Activation.give
  split
  · exact .ok _
  · exact .abortWith _ _

theorem bare_convert (kind : Cast) (dst src : Nat) : Bare (act.convert kind dst src) := by
  cases kind <;> exact .bind (.inRange _) fun _ => .ok _

theorem bare_call (callee : Address) (first count : Nat) (targets : List Target) :
    Bare (call callee first count targets) := by
  unfold call
  split
  · exact .abortWith _ _
  · exact .ok _

/-- The only operation that aborts with a payload is the one that throws an object. -/
theorem bare_step {op : Op} (hthrow : ∀ object, op ≠ .throw object) : Bare (step act op) := by
  cases op with
  | throw object => exact absurd rfl (hthrow object)
  | nop | jump target | retNil => exact .ok _
  | branch test yes no => exact test.bare_eval.bind fun _ => .ok _
  | checkBound index limit =>
    exact .bind (.inRange _) fun _ => (bare_intArg limit).bind fun _ => bare_checkBound _ _
  | ret slot value last =>
    simp only [step]
    split
    · exact value.bare_eval.bind fun v => bare_give slot v last
    · exact .ok _
  | setInt dst src => exact (bare_intArg src).bind fun _ => .ok _
  | setFloat dst src => exact (bare_floatArg src).bind fun _ => .ok _
  | setString dst src => exact (bare_stringArg src).bind fun _ => .ok _
  | setPointer dst src => exact (bare_pointerArg src).bind fun _ => .ok _
  | intOp op dst l r =>
    refine (bare_intArg l).bind fun _ => (bare_intArg r).bind fun _ => ?_
    split
    · exact .ok _
    · exact .abortWith _ _
  | floatOp op dst l r =>
    refine (bare_floatArg l).bind fun _ => (bare_floatArg r).bind fun _ => ?_
    split
    · exact .ok _
    · exact .abortWith _ _
  | intUnary op dst src | flop code dst src | length dst src =>
    exact .bind (.inRange _) fun _ => .ok _
  | load w dst base offset =>
    exact .bind (.inRange _) fun _ => (bare_intArg offset).bind fun _ => bare_load w dst _ _
  | store w base src offset =>
    exact .bind (.inRange _) fun _ => (bare_intArg offset).bind fun _ =>
      .bind (.inRange _) fun v => bare_store w _ _ v
  | convert kind dst src => exact bare_convert kind dst src
  | param slot value => exact value.bare_param.bind fun _ => .ok _
  | call callee first count targets =>
    exact (bare_pointerArg callee).bind fun _ => bare_call _ first count targets
  | alloc dst size => exact (bare_intArg size).bind fun _ => bare_alloc dst _
  | concat dst l r | distance dst l r =>
    exact .bind (.inRange _) fun _ => .bind (.inRange _) fun _ => .ok _
  | movePointer dst base offset =>
    exact .bind (.inRange _) fun _ => (bare_intArg offset).bind fun _ => .ok _

end Lowered

/-! ## What a record holds -/

/-- What the record of the caller holds behind an outcome, by what it held before. -/
inductive Outcome.Leaves (before : ExceptionRecord) : Outcome → ExceptionRecord → Prop where
  /-- Nothing was raised, and the record is as it was. -/
  | kept (count : Nat) : Leaves before (.finished count) before
  /-- The exception was raised. -/
  | raised (x : ScriptException) : Leaves before (.aborted x) (.ofException? (some x))
  /-- The exception has no payload, and was stored beside the payload that was there. -/
  | stored {x : ScriptException} (hx : x.payload = none) :
    Leaves before (.aborted x)
      { ExceptionRecord.ofException? (some x) with payload := before.payload }

namespace Outcome.Leaves

variable {before after : ExceptionRecord} {x : ScriptException}

theorem raise (a : Abort) (place : Option Location) :
    Leaves before (.aborted (.ofAbort a place)) (before.raise a place) :=
  .raised (.ofAbort a place)

theorem store {a : Abort} (ha : a.payload = none) (place : Option Location) :
    Leaves before (.aborted (.ofAbort a place)) (before.store a place) :=
  .stored (x := .ofAbort a place) ha

/-- Behind a run that finished, the record is as it was. -/
theorem eq_before {count : Nat} (h : Leaves before (.finished count) after) : after = before := by
  cases h
  rfl

/-- Behind an abort an exception is recorded. -/
theorem isRaised (h : Leaves before (.aborted x) after) : after.isRaised = true := by
  cases h with
  | raised => exact ExceptionRecord.isRaised_ofException x
  | stored hx => exact ExceptionRecord.isRaised_ofException x

/-- A record without a payload holds the outcome and nothing else. -/
theorem eq_of_payload {outcome : Outcome} (h : outcome.Leaves before after)
    (hpayload : before.payload = none) :
    after = outcome.exception?.elim before fun x => .ofException? (some x) := by
  cases h with
  | kept count => rfl
  | raised x => rfl
  | stored hx =>
    rw [hpayload, ← hx]
    rfl

end Outcome.Leaves

namespace ExceptionRecord

/-- Attribution does not look at the payload. -/
theorem attributeTo_withPayload (r : ExceptionRecord) (payload : Option VmError)
    (place : Option Location) :
    ({ r with payload } : ExceptionRecord).attributeTo place =
      { r.attributeTo place with payload } := by
  have hraised : ({ r with payload } : ExceptionRecord).isRaised = r.isRaised := rfl
  rw [attributeTo, attributeTo, hraised]
  cases r.isRaised && r.place.isNone <;> rfl

theorem attributeTo_of_not_isRaised {r : ExceptionRecord} (h : r.isRaised = false)
    (place : Option Location) : r.attributeTo place = r := by
  rw [attributeTo, h]
  rfl

end ExceptionRecord

/-- Attributing the record is attributing the exception. -/
theorem Outcome.Leaves.attributeTo {before after : ExceptionRecord} {x : ScriptException}
    (h : Leaves before (.aborted x) after) (l : Location) :
    Leaves before (.aborted (x.attributeTo l)) (after.attributeTo (some l)) := by
  cases h with
  | raised =>
    rw [ExceptionRecord.attributeTo_ofException]
    exact .raised _
  | stored hx =>
    rw [ExceptionRecord.attributeTo_withPayload, ExceptionRecord.attributeTo_ofException]
    refine .stored ?_
    rw [ScriptException.attributeTo]
    split <;> exact hx

/-- Aborts enter the record in a way that leaves the exception. -/
def FillAt.Fills (fill : FillAt) (effectAt : Activation → Option (Except Trap Effect)) : Prop :=
  ∀ (record : ExceptionRecord) {act : Activation} {a : Abort} (place : Option Location),
    effectAt act = some (.error (.abort a)) →
    Outcome.Leaves record (.aborted (.ofAbort a place)) (fill act record a place)

theorem raiseAt_fills (effectAt : Activation → Option (Except Trap Effect)) :
    raiseAt.Fills effectAt :=
  fun _ _ a place _ => .raise a place

/-- An operation that aborts leaves its abort in the record. -/
theorem Lowered.step_fills {act : Activation} {op : Op} {a : Abort}
    (h : step act op = .error (.abort a)) (record : ExceptionRecord) (place : Option Location) :
    Outcome.Leaves record (.aborted (.ofAbort a place)) (op.fill record a place) := by
  cases op with
  | throw object | alloc dst size => exact .raise a place
  | _ =>
    refine .store (bare_step ?_ a h) place
    intro object heq
    cases heq

theorem fillAt_fills (ops : Array Lowered.Op) : (fillAt ops).Fills (executeAt ops) := by
  intro record act a place h
  rw [executeAt, Option.map_eq_some_iff] at h
  obtain ⟨op, hop, hstep⟩ := h
  simp only [fillAt, hop]
  exact Lowered.step_fills hstep record place

/-! ## Activations -/

/-- Every call leaves its outcome in a record in which nothing is raised. -/
def CallLeaves (call : Invoke σ) (recordOf : RecordOf σ) : Prop :=
  ∀ ⦃id args slots memory amb r⦄, call id args slots memory amb = .ok r →
    ∀ ⦃record : ExceptionRecord⦄, record.isRaised = false →
      r.outcome.Leaves record (recordOf id args slots memory amb record)

section Activations

variable {functions : Nat} {call : Invoke σ} {recordOf : RecordOf σ}
  (hcalls : CallLeaves call recordOf) {self : FunctionId} {fill : FillAt}
  {effectAt : Activation → Option (Except Trap Effect)} {record : ExceptionRecord}
  (hrecord : record.isRaised = false)

include hcalls hrecord

/-- An instruction that goes on leaves the record as it was. -/
theorem activationRecord_of_moves {before after : Activation × Ambient σ}
    (h : Moves functions call self effectAt before after) (fuel : Nat) :
    activationRecord functions call recordOf self fill effectAt (fuel + 1) before.1 before.2
        record =
      activationRecord functions call recordOf self fill effectAt fuel after.1 after.2 record := by
  rw [activationRecord]
  cases h with
  | next heffect hperform => simp only [heffect, hperform]
  | call heffect hperform hcallee hrun hfinished =>
    -- The callee has finished, so there is nothing to attribute.
    have hleaves := hcalls hrun hrecord
    rw [hfinished] at hleaves
    simp only [heffect, hperform, hcallee, hleaves.eq_before,
      ExceptionRecord.attributeTo_of_not_isRaised hrecord, hrun, hfinished]
    rfl

/-- The last instruction leaves the outcome in the record. -/
theorem activationRecord_of_ends (hfill : fill.Fills effectAt)
    {last : Activation × Ambient σ} {r : Result σ}
    (h : Ends functions call self effectAt last r) (fuel : Nat) :
    r.outcome.Leaves record
      (activationRecord functions call recordOf self fill effectAt (fuel + 1) last.1 last.2
        record) := by
  rw [activationRecord]
  cases h with
  | falls heffect =>
    simp only [heffect]
    exact .kept _
  | raises heffect =>
    simp only [heffect]
    exact hfill record _ heffect
  | leaves heffect hperform =>
    simp only [heffect, hperform]
    exact .kept _
  | propagates heffect hperform hcallee hrun haborted =>
    have hleaves := hcalls hrun hrecord
    rw [haborted] at hleaves
    simp only [heffect, hperform, hcallee, hrun, haborted]
    exact hleaves.attributeTo _

/-- An activation leaves its outcome in the record, by induction over its instructions: up to the
last one the record stays as it is. -/
theorem activationRecord_leaves (hfill : fill.Fills effectAt) {fuel : Nat} {act : Activation}
    {amb : Ambient σ} {r : Result σ}
    (h : runActivation functions call self effectAt fuel act amb = .ok r) :
    r.outcome.Leaves record
      (activationRecord functions call recordOf self fill effectAt fuel act amb record) := by
  induction fuel generalizing act amb with
  | zero => cases h
  | succ fuel ih =>
    rw [runActivation_succ] at h
    obtain ⟨act', amb', hturn, hmove⟩ | ⟨r', hturn, hend⟩ | ⟨s, hturn⟩ :=
      turn_cases functions call self effectAt act amb
    · rw [hturn] at h
      rw [activationRecord_of_moves hcalls hrecord hmove fuel]
      exact ih h
    · rw [hturn] at h
      cases h
      exact activationRecord_of_ends hcalls hrecord hfill hend fuel
    · rw [hturn] at h
      cases h

omit hcalls in
/-- Popping the frame leaves the outcome in the record. -/
theorem leaveRecord_leaves {r : Result σ} {after : ExceptionRecord}
    (h : r.outcome.Leaves record after) :
    (leaveFrame r).outcome.Leaves record (leaveRecord r after) := by
  rw [leaveFrame, leaveRecord]
  cases r.ambient.frames.pop with
  | ok frames => exact h
  | error e =>
    cases houtcome : r.outcome with
    | aborted x =>
      have hraised := h
      rw [houtcome] at hraised
      simp only [hraised.isRaised]
      exact h
    | finished count =>
      rw [houtcome] at h
      simp only [h.eq_before, hrecord]
      exact .raise _ _

/-- A script in a new frame leaves its outcome in the record. -/
theorem frameRecord_leaves (hfill : fill.Fills effectAt) {s : Script} {fuel : Nat}
    {args : List Argument} {slots : ReturnSlots} {memory : Memory} {amb : Ambient σ}
    {r : Result σ} (h : activate functions call self s effectAt fuel args slots memory amb = .ok r) :
    r.outcome.Leaves record
      (frameRecord functions call recordOf self s fill effectAt fuel args slots memory amb
        record) := by
  rw [activate] at h
  rw [frameRecord]
  cases hpush : amb.frames.push s (args.map (·.value)) with
  | mk pushed frames =>
    rw [hpush] at h
    cases pushed with
    | error e =>
      cases h
      exact .raise _ _
    | ok frame =>
      obtain ⟨r', hrun, rfl⟩ := map_eq_ok_iff.1 h
      simp only [hrun]
      exact leaveRecord_leaves hrecord (activationRecord_leaves hcalls hrecord hfill hrun)

end Activations

/-! ## Invocations -/

theorem nativeRecord_leaves {run : Except Stop (Result σ)} {r : Result σ} (h : run = .ok r)
    (record : ExceptionRecord) : r.outcome.Leaves record (nativeRecord run record) := by
  rw [h, nativeRecord]
  cases houtcome : r.outcome with
  | finished count => exact .kept _
  | aborted x => exact .raised x

section Invocations

variable {p : Program} {d : Dispatcher σ}

/-- Every invocation leaves its outcome in the record.  The induction is over the fuel, which bounds
how deep calls are nested. -/
theorem invokeRecord_leaves (fuel : Nat) :
    CallLeaves (invoke p d fuel) (invokeRecord p d fuel) := by
  induction fuel with
  | zero =>
    intro id args slots memory amb r h
    cases h
  | succ fuel ih =>
    intro id args slots memory amb r h record hrecord
    rw [invoke] at h
    rw [invokeRecord]
    cases hfun : p.functions[id]? with
    | none =>
      rw [hfun] at h
      cases h
    | some f =>
      rw [hfun] at h
      cases f with
      | native n => exact nativeRecord_leaves h record
      | script s =>
        simp only at h ⊢
        cases hchoice : d.dispatch id s.script amb with
        | mk code amb' =>
          rw [hchoice] at h
          cases code with
          | some code => exact frameRecord_leaves ih hrecord (fillAt_fills code.ops) h
          | none =>
            simp only [interpret] at h ⊢
            cases hverdict : s.verdict with
            | error defect =>
              rw [hverdict] at h
              cases h
              exact .raise _ _
            | ok u =>
              rw [hverdict] at h
              exact frameRecord_leaves ih hrecord (raiseAt_fills _) h

variable {fuel : Nat} {id : FunctionId} {args : List Argument} {slots : ReturnSlots}
  {memory : Memory} {amb : Ambient σ} {record after : ExceptionRecord} {r : Result σ}

theorem invoke_of_invokeInto
    (h : invokeInto p d fuel id args slots memory amb record = .ok (r, after)) :
    invoke p d fuel id args slots memory amb = .ok r := by
  obtain ⟨r', hrun, hpair⟩ := map_eq_ok_iff.1 h
  cases hpair
  exact hrun

/-- Whoever provides a record in which nothing is raised finds the outcome in it: the record is as
it was behind a run that finished, and behind an abort it holds the exception.  An exception without
a payload may have left a payload that was there before. -/
theorem invokeInto_leaves (hrecord : record.isRaised = false)
    (h : invokeInto p d fuel id args slots memory amb record = .ok (r, after)) :
    r.outcome.Leaves record after := by
  obtain ⟨r', hrun, hpair⟩ := map_eq_ok_iff.1 h
  cases hpair
  exact invokeRecord_leaves fuel hrun hrecord

/-- An empty record holds the outcome afterwards. -/
theorem invokeInto_empty (h : invokeInto p d fuel id args slots memory amb {} = .ok (r, after)) :
    after = r.outcome.toRecord := by
  rw [(invokeInto_leaves rfl h).eq_of_payload rfl, Outcome.toRecord]
  cases r.outcome <;> rfl

end Invocations

end TierVm
