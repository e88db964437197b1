import TierVm.Proofs.Policies

/-!
# Verified scripts meet no internal error

Verification looks at instructions one by one.  Execution meets them in any order, with registers,
parameters and return slots that depend on everything before.  This module says that what
verification has checked is enough.

* `Activation.Safe` lists the internal errors that an instruction could meet and does not:
  `safe_of_fits` for every state that fits, and so on every path through a verified script.
* `silentAbort_of_run` follows an abort that has no particular reason and no payload back to the
  instruction that raised it: `RaisedAtReturn`.
* `verified_scripts_safe` is both.
-/

namespace TierVm

variable {σ : Type}

/-! ## States of an activation -/

/-- An activation of a script meets none of the internal errors of the interpreter. -/
structure Activation.Safe (s : Script) (act : Activation) : Prop where
  /-- The position is in the code or just behind it. -/
  pc_le : act.pc ≤ s.code.size
  /-- The operation is known; its registers and constants exist, and its operand bytes have a
  meaning. -/
  known : ∀ {i : Instr}, s.code[act.pc]? = some i →
    ∃ op, i.opcode? = some op ∧ ∀ n ∈ needs op act.pc i, n.Met s
  /-- A conversion is one of those that exist. -/
  cast : ∀ {i : Instr}, s.code[act.pc]? = some i → i.opcode? = some .cast →
    ∃ kind, Cast.ofByte? i.c = some kind
  /-- A parameter finds room in the parameter area. -/
  param : ∀ {i : Instr} {op : Opcode}, s.code[act.pc]? = some i → i.opcode? = some op →
    op = .param ∨ op = .parami → act.numParam < act.params.size
  /-- A call finds as many parameters as it takes, and its results behind it. -/
  call : ∀ {i : Instr} {op : Opcode}, s.code[act.pc]? = some i → i.opcode? = some op →
    op = .call ∨ op = .callK → i.b.toNat ≤ act.numParam ∧
      ∀ k < i.c.toNat, ∃ r, s.code[act.pc + 1 + k]? = some r ∧ r.opcode? = some .result
  /-- No index that the instruction reads is out of range.  It stops only where it reads memory
  that does not exist. -/
  stop : ∀ {i : Instr} {st : Stop}, s.code[act.pc]? = some i →
    Interpreter.step s act i = .error (.stop st) → st = .badAccess
  /-- No index that its effect writes is out of range either. -/
  perform : ∀ {i : Instr} {e : Effect} {st : Stop}, s.code[act.pc]? = some i →
    Interpreter.step s act i = .ok e → act.perform e = .error st →
    st = .badAccess ∨ st = .outOfMemory
  /-- An abort is one that the operation is meant to raise. -/
  abort : ∀ {i : Instr} {op : Opcode} {a : Abort}, s.code[act.pc]? = some i →
    i.opcode? = some op → Interpreter.step s act i = .error (.abort a) → Raises s act i op a

/-- An activation that fits a verified script is safe. -/
theorem safe_of_fits {s : Script} {act : Activation} (hverify : s.verify = .ok ())
    (hfit : act.Fits s) : act.Safe s := by
  have hs := Script.accepted_of_verify hverify
  have hstands : ∀ {i op}, s.code[act.pc]? = some i → i.opcode? = some op →
      StandsAt s act op i := fun hi hop => ⟨hs, hfit, hi, hop⟩
  have hsound : ∀ {i}, s.code[act.pc]? = some i →
      ∃ op, i.opcode? = some op ∧ StepSound s act op i (Interpreter.step s act i) := by
    intro i hi
    obtain ⟨op, hat⟩ := hfit.standsAt hs hi
    exact ⟨op, hat.opcode, step_sound hat⟩
  refine ⟨hfit.admits.1, ?_, ?_, ?_, ?_, ?_, ?_, ?_⟩
  · intro i hi
    obtain ⟨op, hop, hneeds, _⟩ := hs.instr hi
    exact ⟨op, hop, hneeds⟩
  · intro i hi hop
    have hneeds := (hstands hi hop).checked.1
    simp only [needs] at hneeds
    cases hkind : Cast.ofByte? i.c with
    | some kind => exact ⟨kind, rfl⟩
    | none =>
      rw [hkind] at hneeds
      cases hneeds
  · intro i op hi hop hparam
    rw [hfit.size_params]
    exact (Script.pendingAfter_param hparam (hstands hi hop).checked.2).1
  · intro i op hi hop hcall
    obtain ⟨hwanted, _, hfollow, _⟩ := Script.pendingAfter_call hcall (hstands hi hop).checked.2
    exact ⟨hwanted, fun k hk => Script.result_of_resultsFollow hfollow hk⟩
  · intro i st hi hstep
    obtain ⟨op, _, h⟩ := hsound hi
    rw [hstep] at h
    exact h
  · intro i e st hi hstep hperform
    obtain ⟨op, _, h⟩ := hsound hi
    rw [hstep] at h
    have hperformed := perform_sound hfit h
    rw [hperform] at hperformed
    exact hperformed
  · intro i op a hi hop hstep
    obtain ⟨op', hop', h⟩ := hsound hi
    rw [hop] at hop'
    cases hop'
    rw [hstep] at h
    exact h

/-! ## Aborts of a run -/

/-- The exception was raised by an activation of the invocation that stood at a return, because the
caller's slot had another class than the value; its place is that return. -/
def RaisedAtReturn (p : Program) (d : Dispatcher σ) (w : Invocation σ) (x : ScriptException) :
    Prop :=
  ∃ fuel s effectAt first act amb op i, w.fuel = fuel + 1 ∧ Starts p d w s effectAt first ∧
    Reaches p.size (invoke p d fuel) w.id effectAt first (act, amb) ∧
    s.script.code[act.pc]? = some i ∧ i.opcode? = some op ∧ (op = .ret ∨ op = .reti) ∧
    Raises s.script act i op { reason := .other } ∧ x.place = some ⟨w.id, act.pc⟩

/-- Only returns raise an abort for no particular reason and without a payload. -/
theorem return_of_raises {s : Script} {act : Activation} {i : Instr} {op : Opcode} {a : Abort}
    (h : Raises s act i op a) (hreason : a.reason = .other) (hpayload : a.payload = none) :
    (op = .ret ∨ op = .reti) ∧ Raises s act i op { reason := .other } := by
  cases h with
  | ret hvalue hclass hne => exact ⟨.inl rfl, .ret hvalue hclass hne⟩
  | reti hclass hne => exact ⟨.inr rfl, .reti hclass hne⟩
  | throw object => cases hpayload
  | _ => cases hreason

/-- A native function gives every failure a payload. -/
theorem payload_of_hostEnds {last : HostState σ} {r : Result σ} {x : ScriptException}
    (h : HostEnds last r) (hx : r.outcome = .aborted x) : x.payload ≠ none := by
  intro hnone
  cases h with
  | finish => cases hx
  | fail =>
    cases hx
    cases hnone
  | mismatch hwrite =>
    cases hx
    cases hnone

namespace ScriptException

@[simp] theorem reason_attributeTo (x : ScriptException) (place : Location) :
    (x.attributeTo place).reason = x.reason := by
  unfold attributeTo
  split <;> rfl

@[simp] theorem payload_attributeTo (x : ScriptException) (place : Location) :
    (x.attributeTo place).payload = x.payload := by
  unfold attributeTo
  split <;> rfl

/-- An exception that has a place keeps it. -/
theorem attributeTo_of_place {x : ScriptException} {l : Location} (h : x.place = some l)
    (place : Location) : x.attributeTo place = x := by
  rw [attributeTo, h]

end ScriptException

/-- Activations that hand the exception on leave its place. -/
theorem RaisedAtReturn.attributeTo {p : Program} {d : Dispatcher σ} {w : Invocation σ}
    {x : ScriptException} (h : RaisedAtReturn p d w x) (place : Location) :
    x.attributeTo place = x := by
  obtain ⟨_, _, _, _, _, _, _, _, _, _, _, _, _, _, _, hplace⟩ := h
  exact x.attributeTo_of_place hplace place

section

variable {p : Program} {d : Dispatcher σ} {I : σ → Prop} (hd : d.Policy p I)

include hd

/-- The result of an activation under a policy, its frame popped: the frames are those from before,
and all else is as the activation left it. -/
theorem leaveFrame_eq {v : Invocation σ} {fuel : Nat} {s : LoadedScript}
    {effectAt : Activation → Option (Except Trap Effect)} {first last : Activation × Ambient σ}
    {r : Result σ} (hstart : Starts p d v s effectAt first)
    (hreach : Reaches p.size (invoke p d fuel) v.id effectAt first last)
    (hend : Ends p.size (invoke p d fuel) v.id effectAt last r) :
    leaveFrame r = { r with ambient := { r.ambient with frames := v.ambient.frames } } := by
  obtain ⟨amb, frame, frames, hkept, hpush, rfl⟩ := starts_kept hd.keeps hstart
  obtain ⟨_, _, rfl⟩ := FrameStack.push_ok hpush
  have hcall := invoke_kept hd.keeps fuel
  have hframes : r.ambient.frames = amb.frames.link frame :=
    (hd.keeps.kept_trans (reaches_kept hd.keeps hcall hreach) (ends_kept hd.keeps hcall hend)).1
  rw [leaveFrame_of_link hframes, hkept.1]

/-- The result of an activation under a policy, its frame popped, has the activation's outcome. -/
theorem outcome_leaveFrame {v : Invocation σ} {fuel : Nat} {s : LoadedScript}
    {effectAt : Activation → Option (Except Trap Effect)} {first last : Activation × Ambient σ}
    {r : Result σ} (hstart : Starts p d v s effectAt first)
    (hreach : Reaches p.size (invoke p d fuel) v.id effectAt first last)
    (hend : Ends p.size (invoke p d fuel) v.id effectAt last r) :
    (leaveFrame r).outcome = r.outcome := by
  rw [leaveFrame_eq hd hstart hreach hend]

/-- An abort without a particular reason and without a payload comes from a return.  The induction
is over the fuel: an abort that an activation hands on is one of an invocation that it made, with
less fuel. -/
theorem silentAbort_of_run {fuel : Nat} {v : Invocation σ} (hfuel : v.fuel = fuel)
    (hI : I v.ambient.tier) {r : Result σ} {x : ScriptException} (h : v.run p d = .ok r)
    (hx : r.outcome = .aborted x) (hreason : x.reason = .other) (hpayload : x.payload = none) :
    ∃ w, Within p d v w ∧ RaisedAtReturn p d w x := by
  induction fuel generalizing v r x with
  | zero =>
    obtain ⟨fuel, hfuel', _⟩ := Invocation.run_ok h
    omega
  | succ n ih =>
    obtain ⟨fuel, hfuel', hrun⟩ := Invocation.run_ok h
    have hn : fuel = n := by omega
    subst hn
    obtain ⟨native, last, _, _, hend⟩ | ⟨s, e, _, rfl⟩ |
      ⟨s, effectAt, first, last, r', hstart, hreach, hend, rfl⟩ := hrun
    · exact absurd hpayload (payload_of_hostEnds hend hx)
    · cases hx
      cases hpayload
    · rw [outcome_leaveFrame hd hstart hreach hend] at hx
      obtain ⟨hverify, hmode, hfits, hIfirst⟩ := hstart.mode hd hI
      have hfit := fits_of_reaches hmode hverify hfits hreach
      cases hend with
      | falls heffect => cases hx
      | leaves heffect hperform => cases hx
      | raises heffect =>
        cases hx
        obtain ⟨op, i, hstands, hraises⟩ := hmode.sound hverify hfit heffect
        obtain ⟨hop, hreturn⟩ := return_of_raises hraises hreason hpayload
        exact ⟨v, .refl, fuel, s, effectAt, first, _, _, op, i, hfuel, hstart, hreach,
          hstands.instr, hstands.opcode, hop, hreturn, rfl⟩
      | propagates heffect hperform hcallee hcall haborted =>
        cases hx
        rw [ScriptException.reason_attributeTo] at hreason
        rw [ScriptException.payload_attributeTo] at hpayload
        have hIamb := (reaches_kept hd.keeps (invoke_kept hd.keeps fuel) hreach).2 hIfirst
        have hmakes := Makes.script hfuel hstart hreach heffect hperform hcallee
        obtain ⟨w, hwithin, hraised⟩ := ih (v := ⟨fuel, _, _, _, _, _⟩) rfl hIamb hcall
          haborted hreason hpayload
        refine ⟨w, .head hmakes hwithin, ?_⟩
        rw [hraised.attributeTo]
        exact hraised

end

/-! ## Both together -/

/-- Whatever functions a verified script calls and whatever they do, no state that its
interpretation reaches meets an internal error.  And when an invocation under any policy is aborted
for no particular reason and without a payload, then some activation in its run stood at a return
into a slot of another class, and that return is the place of the exception. -/
theorem verified_scripts_safe :
    (∀ {s : Script}, s.verify = .ok () → ∀ {st st' : FrameStack} {values : List Value}
        {frame : Frame}, st.push s values = (.ok frame, st') →
      ∀ (slots : ReturnSlots) (memory : Memory) (functions : Nat) (call : Invoke σ)
        (self : FunctionId) (amb₀ amb : Ambient σ) (act : Activation),
      Reaches functions call self (interpretAt s) (.start frame slots memory, amb₀) (act, amb) →
        act.Safe s) ∧
    ∀ {p : Program} {d : Dispatcher σ} {I : σ → Prop}, d.Policy p I →
      ∀ {v : Invocation σ} {r : Result σ} {x : ScriptException}, I v.ambient.tier →
        v.run p d = .ok r → r.outcome = .aborted x → x.reason = .other → x.payload = none →
        ∃ w, Within p d v w ∧ RaisedAtReturn p d w x := by
  refine ⟨?_, ?_⟩
  · intro s hverify st st' values frame hpush slots memory functions call self amb₀ amb act hreach
    have hstart := fits_start hverify hpush slots memory
    exact safe_of_fits hverify (fits_of_reaches .interpreted hverify hstart hreach)
  · intro p d I hd v r x hI h hx hreason hpayload
    exact silentAbort_of_run hd rfl hI h hx hreason hpayload

/-- A script that returns an integer. -/
def fiveScript : Script where
  name := "five"
  code := #[.make .reti 128 5 0]

/-- A program of one script, which returns an integer. -/
def returnsInt : Program where
  functions := #[.script (Script.load fiveScript)]

/-- The script is called for a double. -/
def wantsFloat : Invocation Unit where
  fuel := 2
  id := 0
  args := []
  slots := .fresh [.float]
  memory := {}
  ambient := { tier := () }

/-- A script is safe where it starts, and an integer that it returns into the slot of a double is
refused at the return. -/
theorem verified_scripts_safe_wantsFloat :
    fiveScript.verify = .ok () ∧
      (∃ frame st', ({} : FrameStack).push fiveScript [] = (.ok frame, st') ∧
        (Activation.start frame wantsFloat.slots {}).Safe fiveScript) ∧
      ∃ w, Within returnsInt .interpreting wantsFloat w ∧
        RaisedAtReturn returnsInt .interpreting w { reason := .other, place := some ⟨0, 0⟩ } := by
  have hverify : fiveScript.verify = .ok () := by decide +kernel
  obtain ⟨frame, st', hpush⟩ :
      ∃ frame st', ({} : FrameStack).push fiveScript [] = (.ok frame, st') := ⟨_, _, rfl⟩
  have hsafe : (Activation.start frame wantsFloat.slots {}).Safe fiveScript :=
    verified_scripts_safe.1 hverify hpush _ _ 1 (invoke returnsInt .interpreting 1) 0
      wantsFloat.ambient wantsFloat.ambient _ .refl
  refine ⟨hverify, ⟨frame, st', hpush, hsafe⟩, ?_⟩
  have houtcome : (wantsFloat.run returnsInt .interpreting).toOption.map (·.outcome) =
      some (.aborted { reason := .other, place := some ⟨0, 0⟩ }) := by
    decide +kernel
  cases hrun : wantsFloat.run returnsInt .interpreting with
  | error st =>
    rw [hrun] at houtcome
    cases houtcome
  | ok r =>
    rw [hrun] at houtcome
    have hx := Option.some.inj houtcome
    exact verified_scripts_safe.2 (Dispatcher.interpreting_policy _) trivial hrun hx rfl rfl

end TierVm
