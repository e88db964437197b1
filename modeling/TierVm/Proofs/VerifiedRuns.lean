import TierVm.Proofs.LoweredStep
import TierVm.Proofs.Paths

/-!
# Runs of verified scripts

The invariant of `StepSound` holds of every state on every path through a verified script, in both
ways of execution and whatever the functions called do.

* `Mode` names the two ways in which a script runs.  `Mode.cases` says what is found at the
  position of an activation that fits: the end of the code, or an instruction with its effect.
* `fits_start`, `fits_of_moves` and `fits_of_reaches` carry the invariant along a path.
* `Mode.effect_eq` and `Mode.moves_put` are for single instructions that mean the same in both
  modes.
* `pending_params_agree`: the interpreter, verification and lowering count pending parameters
  alike on every path, and a call finds its parameters in fixed slots.
-/

namespace TierVm

open Lowering Lowered

variable {σ : Type}

/-! ## Modes -/

/-- How a script runs: through the interpreter, or as the code that it is lowered to. -/
inductive Mode (s : Script) : (Activation → Option (Except Trap Effect)) → Prop where
  | interpreted : Mode s (interpretAt s)
  | compiled {ops : Array Op} (hlower : lowerCode s = .ok ops) : Mode s (executeAt ops)

section Mode

variable {s : Script} {act : Activation}

/-- At the position of an activation that fits, compiled code has the lowered effect. -/
theorem executeAt_eq (hverify : s.verify = .ok ()) {ops : Array Op}
    (hlower : lowerCode s = .ok ops) (hfit : act.Fits s) :
    executeAt ops act = (interpretAt s act).map (·.map Effect.lowered) := by
  have hs := Script.accepted_of_verify hverify
  obtain ⟨hsize, hat⟩ := lowerCode_at hverify hlower
  rw [executeAt, interpretAt]
  cases hi : s.code[act.pc]? with
  | none =>
    have hpc : ops[act.pc]? = none := by
      rw [Array.getElem?_eq_none_iff] at hi ⊢
      omega
    rw [hpc]
    rfl
  | some i =>
    obtain ⟨op, hstands⟩ := hfit.standsAt hs hi
    obtain ⟨o, ho, hlowered⟩ := hat act.pc i op hi hstands.opcode
    rw [← hstands.numParam_eq] at hlowered
    rw [ho, Option.map_some, Option.map_some, Option.map_some, lowerOp_agrees hstands hlowered,
      Interpreter.step, hstands.opcode]

/-- What is found at the position of an activation that fits: nothing behind the end of the code,
or the effect of the instruction there, lowered in compiled code. -/
theorem Mode.cases {effectAt : Activation → Option (Except Trap Effect)} (hmode : Mode s effectAt)
    (hverify : s.verify = .ok ()) (hfit : act.Fits s) :
    (act.pc = s.code.size ∧ effectAt act = none) ∨
      ∃ op i, StandsAt s act op i ∧
        (effectAt act = some (Interpreter.step s act i) ∨
          effectAt act = some ((Interpreter.step s act i).map Effect.lowered)) := by
  have hs := Script.accepted_of_verify hverify
  cases hi : s.code[act.pc]? with
  | none =>
    left
    have hpc := Array.getElem?_eq_none_iff.1 hi
    refine ⟨by have := hfit.admits.1; omega, ?_⟩
    cases hmode with
    | interpreted => rw [interpretAt, hi, Option.map_none]
    | compiled hlower => rw [executeAt_eq hverify hlower hfit, interpretAt, hi]; rfl
  | some i =>
    right
    obtain ⟨op, hstands⟩ := hfit.standsAt hs hi
    refine ⟨op, i, hstands, ?_⟩
    cases hmode with
    | interpreted => exact .inl (by rw [interpretAt, hi, Option.map_some])
    | compiled hlower =>
      exact .inr (by rw [executeAt_eq hverify hlower hfit, interpretAt, hi]; rfl)

/-- The outcome at the position of an activation that fits is sound in both modes. -/
theorem Mode.sound {effectAt : Activation → Option (Except Trap Effect)} (hmode : Mode s effectAt)
    (hverify : s.verify = .ok ()) (hfit : act.Fits s) {outcome : Except Trap Effect}
    (houtcome : effectAt act = some outcome) :
    ∃ op i, StandsAt s act op i ∧ StepSound s act op i outcome := by
  obtain ⟨_, hnone⟩ | ⟨op, i, hstands, heq | heq⟩ := hmode.cases hverify hfit
  · rw [hnone] at houtcome
    cases houtcome
  · rw [heq] at houtcome
    cases houtcome
    exact ⟨op, i, hstands, step_sound hstands⟩
  · rw [heq] at houtcome
    cases houtcome
    refine ⟨op, i, hstands, ?_⟩
    have hsound := step_sound hstands
    cases hstep : Interpreter.step s act i with
    | error t =>
      rw [hstep] at hsound
      exact hsound
    | ok e =>
      rw [hstep] at hsound
      exact Effect.sound_lowered.2 hsound

end Mode

/-! ## The invariant along a path -/

section Path

variable {s : Script} {functions : Nat} {call : Invoke σ} {self : FunctionId}
  {effectAt : Activation → Option (Except Trap Effect)}

/-- An activation starts out fitting its script. -/
theorem fits_start (hverify : s.verify = .ok ()) {st st' : FrameStack} {args : List Value}
    {frame : Frame} (hpush : st.push s args = (.ok frame, st')) (slots : ReturnSlots)
    (memory : Memory) : (Activation.start frame slots memory).Fits s := by
  obtain ⟨_, hfill, _⟩ := FrameStack.push_ok hpush
  obtain ⟨hregs, hparams⟩ := Frame.fill_blank_ok hfill
  refine ⟨⟨Nat.zero_le _, ?_⟩, hregs, ?_, ?_⟩
  · intro _
    exact (Script.accepted_of_verify hverify).pendingAt_zero.symm
  · simp [Activation.start, hparams]
  · intro p hp
    simp only [Activation.start, Array.mem_replicate] at hp
    rw [hp.2]
    trivial

/-- One instruction leads from an activation that fits to one that fits. -/
theorem fits_of_moves (hmode : Mode s effectAt) (hverify : s.verify = .ok ())
    {before after : Activation × Ambient σ} (hfit : before.1.Fits s)
    (h : Moves functions call self effectAt before after) : after.1.Fits s := by
  cases h with
  | next heffect hperform =>
    obtain ⟨op, i, _, hsound⟩ := hmode.sound hverify hfit heffect
    have hstep := perform_sound hfit hsound
    rw [hperform] at hstep
    exact hstep
  | call heffect hperform _ _ _ =>
    obtain ⟨op, i, _, hsound⟩ := hmode.sound hverify hfit heffect
    have hstep := perform_sound hfit hsound
    rw [hperform] at hstep
    exact hstep _ _

/-- Every activation on a path fits the script if the first one does. -/
theorem fits_of_reaches (hmode : Mode s effectAt) (hverify : s.verify = .ok ())
    {first last : Activation × Ambient σ} (hfit : first.1.Fits s)
    (h : Reaches functions call self effectAt first last) : last.1.Fits s := by
  induction h with
  | refl => exact hfit
  | tail _ hmove ih => exact fits_of_moves hmode hverify ih hmove

end Path

/-! ## One instruction -/

section Instruction

variable {s : Script} {act : Activation} {effectAt : Activation → Option (Except Trap Effect)}
  {i : Instr}

/-- An instruction on which lowering changes nothing comes to the same in both modes. -/
theorem Mode.effect_eq (hmode : Mode s effectAt) (hverify : s.verify = .ok ())
    (hfit : act.Fits s) (hi : s.code[act.pc]? = some i)
    (hsame : (Interpreter.step s act i).map Effect.lowered = Interpreter.step s act i) :
    effectAt act = some (Interpreter.step s act i) := by
  cases hmode with
  | interpreted => rw [interpretAt, hi, Option.map_some]
  | compiled hlower =>
    rw [executeAt_eq hverify hlower hfit, interpretAt, hi, Option.map_some, Option.map_some, hsame]

/-- An instruction that puts a value into a register goes on behind it, in both modes. -/
theorem Mode.moves_put {functions : Nat} {call : Invoke σ} {self : FunctionId}
    (hmode : Mode s effectAt) (hverify : s.verify = .ok ()) (hfit : act.Fits s)
    (hi : s.code[act.pc]? = some i) {index : Nat} {v : Value}
    (hstep : Interpreter.step s act i = .ok (.put index v)) (amb : Ambient σ) :
    ∃ regs, act.regs.put? index v = some regs ∧
      Moves functions call self effectAt (act, amb) ({ act with pc := act.pc + 1, regs }, amb) := by
  have heffect : effectAt act = some (.ok (.put index v)) := by
    rw [← hstep]
    exact hmode.effect_eq hverify hfit hi (by rw [hstep]; rfl)
  obtain ⟨_, _, _, hsound⟩ := hmode.sound hverify hfit heffect
  obtain ⟨regs, hregs, _⟩ := put?_fits hfit hsound.1
  have hperform : act.perform (.put index v) =
      .ok (.next { act with pc := act.pc + 1, regs } false) := by
    simp only [Activation.perform, hregs]
    rfl
  exact ⟨regs, hregs, .next heffect hperform⟩

end Instruction

/-! ## Pending parameters -/

/-- The effect is a call with the arguments that the parameter slots `first`, …,
`first + count - 1` hold, and it leaves the activation with `first` parameters pending. -/
def Effect.TakesParams (act : Activation) (first count : Nat) (e : Effect) : Prop :=
  ∃ callee targets cells args slots,
    e = .call callee first count targets cells ∧
      act.perform e = .ok (.call { act with numParam := first } callee args slots targets) ∧
      args.length = count ∧
      ∀ k < count, (act.params[first + k]?).bind (act.argument targets) = args[k]?

/-- A sound call takes the parameters that it names. -/
theorem takesParams_of_sound {s : Script} {act : Activation} (hfit : act.Fits s)
    {callee : Address} {first count : Nat} {targets : List Target} {cells : ResultCells}
    (hsound : (Effect.call callee first count targets cells).Sound s act) :
    (Effect.call callee first count targets cells).TakesParams act first count := by
  obtain ⟨hfirst, hmax, _, htargets, _⟩ := hsound
  have hregs : ∀ t ∈ targets, t.index < act.regs.sizeOf t.cls := by
    intro t ht
    exact hfit.lt (htargets t ht)
  have hroom : first + count ≤ s.maxParam.toNat := by omega
  obtain ⟨slots, hslots, _⟩ := Activation.callSlots_eq_some cells hregs
  obtain ⟨args, hargs, hlen, hparams⟩ := arguments_eq_some hfit targets hroom
  refine ⟨callee, targets, cells, args, slots, rfl, ?_, hlen, hparams⟩
  simp only [Activation.perform, hslots, hargs]

/-- A call that is made in either mode takes the last of the parameters pending. -/
theorem Mode.call_effect {s : Script} {act : Activation}
    {effectAt : Activation → Option (Except Trap Effect)} (hmode : Mode s effectAt)
    (hverify : s.verify = .ok ()) (hfit : act.Fits s) {op : Opcode} {i : Instr} {e : Effect}
    (hi : s.code[act.pc]? = some i) (hop : i.opcode? = some op) (hcall : op = .call ∨ op = .callK)
    (he : effectAt act = some (.ok e)) :
    i.b.toNat ≤ act.numParam ∧
      e.TakesParams act (act.numParam - i.b.toNat) i.b.toNat := by
  obtain ⟨_, hnone⟩ | ⟨op', i', hstands, hstep⟩ := hmode.cases hverify hfit
  · rw [hnone] at he
    cases he
  · have hinstr := hstands.instr
    rw [hi] at hinstr
    cases hinstr
    have hopcode := hstands.opcode
    rw [hop] at hopcode
    cases hopcode
    -- Both operations read the callee first and then make the call.
    have hmade : ∀ {e}, Interpreter.step s act i = .ok e →
        i.b.toNat ≤ act.numParam ∧ ∃ callee targets,
          e = .call callee (act.numParam - i.b.toNat) i.b.toNat targets .registers := by
      intro e he
      rw [Interpreter.step, hop] at he
      rcases hcall with rfl | rfl
      · obtain ⟨callee, _, he⟩ := bind_eq_ok_iff.1 he
        obtain ⟨hle, heq⟩ := call_ok hstands (.inl rfl) he
        exact ⟨hle, callee, _, heq⟩
      · obtain ⟨callee, _, he⟩ := bind_eq_ok_iff.1 he
        obtain ⟨hle, heq⟩ := call_ok hstands (.inr rfl) he
        exact ⟨hle, callee, _, heq⟩
    obtain ⟨_, _, _, hsound⟩ := hmode.sound hverify hfit he
    rcases hstep with heq | heq
    · rw [heq] at he
      obtain ⟨hle, callee, targets, rfl⟩ := hmade (Option.some.inj he)
      exact ⟨hle, takesParams_of_sound hfit hsound⟩
    · rw [heq] at he
      obtain ⟨plain, hplain, rfl⟩ := map_eq_ok_iff.1 (Option.some.inj he)
      obtain ⟨hle, callee, targets, rfl⟩ := hmade hplain
      exact ⟨hle, takesParams_of_sound hfit hsound⟩

/-- A whole call leaves the parameters that it did not take. -/
theorem params_of_call {functions : Nat} {call : Invoke σ} {self : FunctionId}
    {effectAt : Activation → Option (Except Trap Effect)} {act : Activation} {amb : Ambient σ}
    {after : Activation × Ambient σ} {e : Effect} {first count : Nat}
    (he : effectAt act = some (.ok e)) (htakes : e.TakesParams act first count)
    (h : Moves functions call self effectAt (act, amb) after) :
    after.1.numParam = first ∧ after.1.params = act.params := by
  obtain ⟨callee, targets, cells, args, slots, rfl, hperform, _⟩ := htakes
  cases h with
  | next heffect hperform' =>
    rw [he] at heffect
    cases heffect
    rw [hperform] at hperform'
    cases hperform'
  | call heffect hperform' _ _ _ =>
    rw [he] at heffect
    cases heffect
    rw [hperform] at hperform'
    cases hperform'
    exact ⟨rfl, rfl⟩

/-- The interpreter's counter of pending parameters, the count of verification and the count of
lowering are the same wherever a path through a verified script stands, in both modes and whatever
the functions called do.  So a call at a given instruction takes its arguments from the same slots
on every path, and leaves the parameters below them to the call that they were pushed for. -/
theorem pending_params_agree {s : Script} (hverify : s.verify = .ok ()) {st st' : FrameStack}
    {values : List Value} {frame : Frame} (hpush : st.push s values = (.ok frame, st'))
    (slots : ReturnSlots) (memory : Memory) (functions : Nat) (call : Invoke σ)
    (self : FunctionId) (amb₀ : Ambient σ) :
    ∃ counts : List Nat, s.pendingCounts = .ok counts ∧ countsFrom s.code.toList 0 = counts ∧
      (∀ {ops : Array Op}, lowerCode s = .ok ops → ∀ {pc n : Nat} {i : Instr} {op : Opcode},
        s.code[pc]? = some i → i.opcode? = some op → counts[pc]? = some n →
          ∃ o, ops[pc]? = some o ∧ lowerOp s pc n op i = .ok o) ∧
      ∀ {effectAt : Activation → Option (Except Trap Effect)}, Mode s effectAt →
        ∀ {act : Activation} {amb : Ambient σ},
          Reaches functions call self effectAt (.start frame slots memory, amb₀) (act, amb) →
          ∀ {i : Instr}, s.code[act.pc]? = some i →
            ∃ n, counts[act.pc]? = some n ∧ act.numParam = n ∧
              ∀ {op : Opcode} {e : Effect}, i.opcode? = some op → op = .call ∨ op = .callK →
                effectAt act = some (.ok e) →
                  i.b.toNat ≤ n ∧ e.TakesParams act (n - i.b.toNat) i.b.toNat ∧
                    ∀ {after : Activation × Ambient σ},
                      Moves functions call self effectAt (act, amb) after →
                        after.1.numParam = n - i.b.toNat ∧
                          ∀ k < n - i.b.toNat, after.1.params[k]? = act.params[k]? := by
  obtain ⟨counts, hcounts, _, hat⟩ := Script.pendingCounts_of_verify hverify
  refine ⟨counts, hcounts, countsFrom_eq hcounts, ?_, ?_⟩
  · intro ops hlower pc n i op hi hop hn
    have hpc : pc < s.code.size := (Array.getElem?_eq_some_iff.1 hi).1
    rw [hat pc (by omega)] at hn
    cases hn
    exact (lowerCode_at hverify hlower).2 pc i op hi hop
  · intro effectAt hmode act amb hreach i hi
    have hfit : act.Fits s :=
      fits_of_reaches hmode hverify (fits_start hverify hpush slots memory) hreach
    have hpc : act.pc < s.code.size := (Array.getElem?_eq_some_iff.1 hi).1
    refine ⟨act.numParam, ?_, rfl, ?_⟩
    · rw [hat act.pc (by omega), hfit.admits.2 hpc]
    · intro op e hop hcall he
      obtain ⟨hle, htakes⟩ := hmode.call_effect hverify hfit hi hop hcall he
      refine ⟨hle, htakes, ?_⟩
      intro after hmove
      obtain ⟨hnum, hparams⟩ := params_of_call he htakes hmove
      refine ⟨hnum, ?_⟩
      intro k _
      rw [hparams]

/-- A script that pushes two parameters and makes two calls, each with the last one pending. -/
def nestedCalls : Script where
  name := "nested"
  code := #[.make .parami 1 0 0, .make .parami 2 0 0, .make .callK 0 1 0, .make .callK 0 1 0]
  konst := { pointers := #[functionAddress 0] }
  maxParam := 2

/-- The counts of a script with nested calls, and the path that has just begun. -/
theorem pending_params_agree_nestedCalls :
    nestedCalls.verify = .ok () ∧ ∃ frame st' counts,
      ({} : FrameStack).push nestedCalls [] = (.ok frame, st') ∧
        nestedCalls.pendingCounts = .ok counts ∧ countsFrom nestedCalls.code.toList 0 = counts ∧
        counts[0]? = some (Activation.start frame (.fresh []) {}).numParam := by
  have hverify : nestedCalls.verify = .ok () := by decide +kernel
  obtain ⟨frame, st', hpush⟩ :
      ∃ frame st', ({} : FrameStack).push nestedCalls [] = (.ok frame, st') := ⟨_, _, rfl⟩
  obtain ⟨counts, hcounts, hlowered, _, hpaths⟩ := pending_params_agree (σ := Unit) hverify hpush
    (.fresh []) {} 1 (fun _ _ _ _ _ => .error .badAccess) 0 { tier := () }
  obtain ⟨n, hn, heq, _⟩ := hpaths .interpreted .refl rfl
  exact ⟨hverify, frame, st', counts, hpush, hcounts, hlowered, by rw [heq]; exact hn⟩

end TierVm
