import Mathlib.Data.List.Forall2
import TierVm.Proofs.Registers
import TierVm.Support.Routine

/-!
# Histories of a frame stack

A push sets up fresh registers and hands the arguments out, each to the next register of its class.
It is undone when an argument finds no register.  This module says what a stack holds after any
sequence of pushes and pops, whether they are made directly or through the support routines.

There are four groups.

* Handing out.  `handedOut` says what a register holds, from the arguments of its class alone.
  `Distributed` is the invariant of `distribute`, which moves four cursors: `Distributed.put` is one
  argument, and `distribute_cases` is the induction over the arguments.
* One push.  `FrameStack.push_cases` lists how it comes out.  `FirstUnfit` is the argument that an
  error names.
* Histories.  `FrameOp` is an operation, and `FrameOp.entries` is its effect on a plain list of
  calls.  `Shows.apply` is one operation and `shows_after` the whole history.
* `frame_stack_bounded` is the contract of a stack after any history.
-/

namespace TierVm

/-! ## Handing out arguments -/

/-- The values of a class, in order. -/
def ofClass (cls : RegClass) (args : List Value) : List Value := args.filter (·.regClass = cls)

/-- What a register holds when arguments have been handed out over fresh registers: the argument of
its class with its number, or else what it held. -/
def handedOut (n : RegisterCounts) (args : List Value) (cls : RegClass) (k : Nat) :
    Option Value :=
  if k < n.of cls then some ((ofClass cls args)[k]?.getD (.zero cls)) else none

/-- There are registers for all arguments. -/
def ArgsFit (n : RegisterCounts) (args : List Value) : Prop :=
  ∀ cls, (ofClass cls args).length ≤ n.of cls

instance (n : RegisterCounts) (args : List Value) : Decidable (ArgsFit n args) :=
  decidable_of_iff (∀ cls ∈ RegClass.all, (ofClass cls args).length ≤ n.of cls)
    ⟨fun h cls => h cls (by cases cls <;> decide), fun h cls _ => h cls⟩

/-- The argument with number `i`, of class `cls`, is the first that finds no register: those before
it have taken all of its class, and each of them found one. -/
structure FirstUnfit (n : RegisterCounts) (args : List Value) (i : Nat) (cls : RegClass) :
    Prop where
  isArg : args[i]?.map (·.regClass) = some cls
  full : n.of cls ≤ (ofClass cls (args.take i)).length
  before : ∀ j < i, ∀ cls', args[j]?.map (·.regClass) = some cls' →
    (ofClass cls' (args.take j)).length < n.of cls'

/-- Arguments have been handed out: the cursors stand behind the registers taken, and the registers
hold what they should. -/
structure Distributed (n : RegisterCounts) (args : List Value) (cursors : Cursors)
    (regs : Registers) : Prop where
  cursor : ∀ cls, cursors.of cls = (ofClass cls args).length
  fits : ArgsFit n args
  sizeOf : ∀ cls, regs.sizeOf cls = n.of cls
  holds : ∀ cls k, regs.get? cls k = handedOut n args cls k

section Distribute

variable {n : RegisterCounts} {args rest : List Value} {cursors : Cursors} {regs : Registers}
  {v : Value} {cls : RegClass}

theorem ofClass_append (cls : RegClass) (args rest : List Value) :
    ofClass cls (args ++ rest) = ofClass cls args ++ ofClass cls rest :=
  List.filter_append ..

theorem ofClass_self (v : Value) : ofClass v.regClass [v] = [v] := by
  simp [ofClass]

theorem ofClass_other (h : cls ≠ v.regClass) : ofClass cls [v] = [] := by
  simp [ofClass, Ne.symm h]

/-- In front of an argument there are fewer of its class than in all. -/
theorem length_ofClass_take_lt {i : Nat} (h : args[i]?.map (·.regClass) = some cls) :
    (ofClass cls (args.take i)).length < (ofClass cls args).length := by
  obtain ⟨v, hv, rfl⟩ := Option.map_eq_some_iff.1 h
  obtain ⟨hi, rfl⟩ := List.getElem?_eq_some_iff.1 hv
  have hsplit : args = args.take i ++ [args[i]] ++ args.drop (i + 1) := by
    simp
  have hlength := congrArg (fun l => (ofClass args[i].regClass l).length) hsplit
  simp only [ofClass_append, ofClass_self, List.length_append, List.length_singleton] at hlength
  omega

theorem Cursors.of_advance_self (c : Cursors) (cls : RegClass) :
    (c.advance cls).of cls = c.of cls + 1 := by
  cases cls <;> rfl

theorem Cursors.of_advance_other (c : Cursors) {cls cls' : RegClass} (h : cls' ≠ cls) :
    (c.advance cls).of cls' = c.of cls' := by
  cases cls <;> cases cls' <;> first | rfl | exact absurd rfl h

/-- Behind the last register of a class there is none. -/
theorem Registers.put?_eq_none {i : Nat} (h : regs.sizeOf v.regClass ≤ i) :
    regs.put? i v = none := by
  cases v with
  | int x | float x | string x | pointer x => exact if_neg (Nat.not_lt.2 h)

theorem Registers.get?_fresh (n : RegisterCounts) (cls : RegClass) (k : Nat) :
    (fresh n).get? cls k = if k < n.of cls then some (.zero cls) else none := by
  cases cls <;>
  · simp only [fresh, get?, Array.getElem?_replicate]
    split <;> rfl

/-- Fresh registers, in front of the first argument. -/
theorem distributed_fresh (n : RegisterCounts) : Distributed n [] {} (.fresh n) where
  cursor cls := by cases cls <;> rfl
  fits _ := Nat.zero_le _
  sizeOf := Registers.sizeOf_fresh n
  holds := Registers.get?_fresh n

/-- What a register holds behind one more argument: the argument if it is the next of its class, and
else what it held. -/
theorem handedOut_concat (hroom : (ofClass v.regClass args).length < n.of v.regClass)
    (cls : RegClass) (k : Nat) :
    handedOut n (args ++ [v]) cls k =
      if cls = v.regClass ∧ k = (ofClass v.regClass args).length then some v
      else handedOut n args cls k := by
  by_cases hcls : cls = v.regClass
  · subst hcls
    by_cases hk : k = (ofClass v.regClass args).length
    · rw [if_pos ⟨rfl, hk⟩, handedOut, hk, if_pos hroom, ofClass_append, ofClass_self]
      simp
    · rw [if_neg fun h => hk h.2]
      have hsame : (ofClass v.regClass (args ++ [v]))[k]? = (ofClass v.regClass args)[k]? := by
        rw [ofClass_append, ofClass_self]
        rcases Nat.lt_or_gt_of_ne hk with hlt | hgt
        · exact List.getElem?_append_left hlt
        · rw [List.getElem?_eq_none (by simp; omega), List.getElem?_eq_none (by omega)]
      rw [handedOut, handedOut, hsame]
  · rw [if_neg fun h => hcls h.1, handedOut, handedOut, ofClass_append, ofClass_other hcls,
      List.append_nil]

/-- One argument for which there is a register. -/
theorem Distributed.put (h : Distributed n args cursors regs)
    (hroom : (ofClass v.regClass args).length < n.of v.regClass) :
    ∃ regs', regs.put? (cursors.of v.regClass) v = some regs' ∧
      Distributed n (args ++ [v]) (cursors.advance v.regClass) regs' := by
  have hindex : cursors.of v.regClass < regs.sizeOf v.regClass := by
    rw [h.cursor, h.sizeOf]
    exact hroom
  obtain ⟨regs', hput⟩ := Registers.put?_eq_some hindex
  refine ⟨regs', hput, ?_, ?_, ?_, ?_⟩
  · intro cls
    by_cases hcls : cls = v.regClass
    · subst hcls
      rw [Cursors.of_advance_self, h.cursor, ofClass_append, ofClass_self, List.length_append,
        List.length_singleton]
    · rw [Cursors.of_advance_other _ hcls, h.cursor, ofClass_append, ofClass_other hcls,
        List.append_nil]
  · intro cls
    by_cases hcls : cls = v.regClass
    · subst hcls
      rw [ofClass_append, ofClass_self, List.length_append, List.length_singleton]
      exact hroom
    · rw [ofClass_append, ofClass_other hcls, List.append_nil]
      exact h.fits cls
  · intro cls
    rw [Registers.sizeOf_put? hput, h.sizeOf]
  · intro cls k
    rw [handedOut_concat hroom]
    split
    · rename_i hself
      rw [hself.1, hself.2, ← h.cursor]
      exact Registers.get?_put?_self hput
    · rename_i hother
      rw [← h.holds]
      refine Registers.get?_put?_other hput ?_
      rw [h.cursor]
      exact not_and_or.1 hother

/-- The wording of the error for an argument that finds no register. -/
def misfit (i : Nat) (cls : RegClass) : VmError :=
  .malformed s!"argument {i} does not fit the {cls.letter} registers"

/-- Handing out the rest of the arguments: all of them find a register, or the first that does not
is named.  The induction is over the rest; what was handed out before grows with it. -/
theorem distribute_cases (rest : List Value) (h : Distributed n args cursors regs) :
    (∃ cursors' regs', distribute rest args.length cursors regs = .ok regs' ∧
        Distributed n (args ++ rest) cursors' regs') ∨
      ∃ i cls, FirstUnfit n (args ++ rest) i cls ∧
        distribute rest args.length cursors regs = .error (misfit i cls) := by
  induction rest generalizing args cursors regs with
  | nil =>
    refine .inl ⟨cursors, regs, rfl, ?_⟩
    rw [List.append_nil]
    exact h
  | cons v rest ih =>
    rcases Nat.lt_or_ge (ofClass v.regClass args).length (n.of v.regClass) with hroom | hfull
    · obtain ⟨regs', hput, hnext⟩ := h.put hroom
      have hstep : distribute (v :: rest) args.length cursors regs =
          distribute rest (args ++ [v]).length (cursors.advance v.regClass) regs' := by
        rw [distribute, hput, List.length_append]
        rfl
      have hargs : args ++ v :: rest = args ++ [v] ++ rest := List.append_cons ..
      rw [hstep, hargs]
      exact ih hnext
    · refine .inr ⟨args.length, v.regClass, ⟨by simp, by simpa using hfull, ?_⟩, ?_⟩
      · intro j hj cls' hcls'
        rw [List.getElem?_append_left hj] at hcls'
        rw [List.take_append_of_le_length (by omega)]
        exact Nat.lt_of_lt_of_le (length_ofClass_take_lt hcls') (h.fits cls')
      · have hnone : regs.put? (cursors.of v.regClass) v = none := by
          apply Registers.put?_eq_none
          rw [h.cursor, h.sizeOf]
          exact hfull
        rw [distribute, hnone]
        rfl

/-- Where an argument finds no register, there are not registers for all. -/
theorem FirstUnfit.not_argsFit {i : Nat} (h : FirstUnfit n args i cls) : ¬ ArgsFit n args := by
  intro hfits
  have hlt := length_ofClass_take_lt h.isArg
  have hfull := h.full
  have hle := hfits cls
  omega

end Distribute

/-! ## One push -/

/-- The frame of a call that has just been entered: the header of its script, no parameter pending,
and the arguments in its registers. -/
structure Frame.Holds (f : Frame) (s : Script) (args : List Value) : Prop where
  script : f.script = s
  counts : f.counts = s.regs
  maxParam : f.maxParam = s.maxParam
  numParam : f.numParam = 0
  size : f.size = UInt32.ofNat (FrameLayout.ofScript s).size
  register : ∀ cls k, f.regs.get? cls k = handedOut s.regs args cls k

/-- Filling a fresh frame: it holds the arguments, or the first that does not fit is named. -/
theorem Frame.fill_cases (s : Script) (args : List Value) :
    (∃ frame, (Frame.blank s).fill args = .ok frame ∧ frame.Holds s args ∧ ArgsFit s.regs args) ∨
      ∃ i cls, FirstUnfit s.regs args i cls ∧
        (Frame.blank s).fill args = .error (misfit i cls) := by
  obtain ⟨cursors, regs, hregs, hdone⟩ | ⟨i, cls, hfirst, herror⟩ :=
    distribute_cases args (distributed_fresh s.regs)
  · have hfill : (Frame.blank s).fill args = .ok { Frame.blank s with regs } :=
      congrArg (Except.map _) hregs
    exact .inl ⟨_, hfill, ⟨rfl, rfl, rfl, rfl, rfl, hdone.holds⟩, hdone.fits⟩
  · exact .inr ⟨i, cls, hfirst, congrArg (Except.map _) herror⟩

namespace FrameStack

/-- How a push comes out: the stack is full, an argument does not fit and nothing has changed, or
the new frame is on top of those before. -/
theorem push_cases (st : FrameStack) (s : Script) (args : List Value) :
    (maxFrameDepth ≤ st.depth ∧ st.push s args = (.error (.stackOverflow st.depth), st)) ∨
      (st.depth < maxFrameDepth ∧ ∃ i cls, FirstUnfit s.regs args i cls ∧
        st.push s args = (.error (misfit i cls), st)) ∨
      (st.depth < maxFrameDepth ∧ ArgsFit s.regs args ∧ ∃ frame, frame.Holds s args ∧
        st.push s args = (.ok frame, st.link frame)) := by
  rw [push]
  split
  · rename_i hfull
    exact .inl ⟨hfull, rfl⟩
  · rename_i hroom
    obtain ⟨frame, hfill, hholds, hfits⟩ | ⟨i, cls, hfirst, hfill⟩ := Frame.fill_cases s args
    · rw [hfill]
      exact .inr (.inr ⟨Nat.not_le.1 hroom, hfits, frame, hholds, rfl⟩)
    · rw [hfill]
      exact .inr (.inl ⟨Nat.not_le.1 hroom, i, cls, hfirst, rfl⟩)

/-- A push succeeds where there is room for one more frame and for the arguments in it. -/
theorem push_ok_iff (st : FrameStack) (s : Script) (args : List Value) :
    (∃ frame, (st.push s args).1 = .ok frame) ↔
      st.depth < maxFrameDepth ∧ ArgsFit s.regs args := by
  obtain ⟨hfull, hpush⟩ | ⟨_, i, cls, hfirst, hpush⟩ | ⟨hroom, hfits, frame, _, hpush⟩ :=
    st.push_cases s args
  · simp [hpush, Nat.not_lt.2 hfull]
  · simp [hpush, hfirst.not_argsFit]
  · simp [hpush, hroom, hfits]

/-- A push that fails: why, and that the stack is as it was. -/
theorem push_error_cases {st st' : FrameStack} {s : Script} {args : List Value} {e : VmError}
    (h : st.push s args = (.error e, st')) :
    st' = st ∧ ((maxFrameDepth ≤ st.depth ∧ e = .stackOverflow st.depth) ∨
      (st.depth < maxFrameDepth ∧ ∃ i cls, FirstUnfit s.regs args i cls ∧ e = misfit i cls)) := by
  obtain ⟨hfull, hpush⟩ | ⟨hroom, i, cls, hfirst, hpush⟩ | ⟨_, _, frame, _, hpush⟩ :=
    st.push_cases s args
  · rw [hpush] at h
    cases h
    exact ⟨rfl, .inl ⟨hfull, rfl⟩⟩
  · rw [hpush] at h
    cases h
    exact ⟨rfl, .inr ⟨hroom, i, cls, hfirst, rfl⟩⟩
  · rw [hpush] at h
    cases h

/-- A push that succeeds: the frame holds its arguments. -/
theorem holds_of_push {st st' : FrameStack} {s : Script} {args : List Value} {frame : Frame}
    (h : st.push s args = (.ok frame, st')) : frame.Holds s args := by
  obtain ⟨_, hpush⟩ | ⟨_, i, cls, _, hpush⟩ | ⟨_, _, frame', hholds, hpush⟩ :=
    st.push_cases s args
  · rw [hpush] at h
    cases h
  · rw [hpush] at h
    cases h
  · rw [hpush] at h
    cases h
    exact hholds

end FrameStack

/-! ## Histories -/

/-- One use of a frame stack, made directly or through a support routine.  The routines take an
exception record; a push through one takes a count of its arguments. -/
inductive FrameOp where
  | push (s : Script) (args : List Value)
  | pop
  | pushFrame (s : Script) (args : List Value) (count : Int32) (record : ExceptionRecord)
  | popFrame (hasStack : Bool) (record : ExceptionRecord)

/-- A call that has been entered and not been left. -/
structure OpenCall where
  script : Script
  args : List Value

namespace FrameOp

/-- The stack behind an operation. -/
def apply (st : FrameStack) : FrameOp → FrameStack
  | .push s args => (st.push s args).2
  | .pop =>
    match st.pop with
    | .ok st' => st'
    | .error _ => st
  | .pushFrame s args count record =>
    (Support.pushFrame st s (Support.passedArgs args count) record).2.1
  | .popFrame hasStack record => (Support.popFrame st hasStack record).1

/-- The stack behind a sequence of operations on an empty one. -/
def stackAfter (ops : List FrameOp) : FrameStack := ops.foldl apply {}

/-- Enter a call if fewer than the most are open and the arguments fit. -/
def enter (calls : List OpenCall) (s : Script) (args : List Value) : List OpenCall :=
  if calls.length < maxFrameDepth ∧ ArgsFit s.regs args then ⟨s, args⟩ :: calls else calls

/-- The open calls behind an operation. -/
def entries (calls : List OpenCall) : FrameOp → List OpenCall
  | .push s args => enter calls s args
  | .pop => calls.tail
  | .pushFrame s args count _ => enter calls s (Support.passedArgs args count)
  | .popFrame hasStack _ => if hasStack then calls.tail else calls

/-- The open calls behind a sequence of operations. -/
def callsAfter (ops : List FrameOp) : List OpenCall := ops.foldl entries []

end FrameOp

namespace FrameStack

/-- The frames of a stack are those of the open calls, each as it was entered, and they are
counted. -/
structure Shows (st : FrameStack) (calls : List OpenCall) : Prop where
  depth : st.depth = calls.length
  bounded : calls.length ≤ maxFrameDepth
  frames : List.Forall₂ (fun f c => f.Holds c.script c.args) st.frames calls

variable {st : FrameStack} {calls : List OpenCall}

theorem shows_empty : Shows {} [] := ⟨rfl, Nat.zero_le _, .nil⟩

theorem Shows.length_frames (h : st.Shows calls) : st.frames.length = st.depth :=
  h.frames.length_eq.trans h.depth.symm

theorem Shows.push (h : st.Shows calls) (s : Script) (args : List Value) :
    (st.push s args).2.Shows (FrameOp.enter calls s args) := by
  obtain ⟨hfull, hpush⟩ | ⟨_, i, cls, hfirst, hpush⟩ | ⟨hroom, hfits, frame, hholds, hpush⟩ :=
    st.push_cases s args
  · rw [hpush, FrameOp.enter, if_neg]
    · exact h
    · rw [← h.depth]
      exact fun hopen => absurd hopen.1 (Nat.not_lt.2 hfull)
  · rw [hpush, FrameOp.enter, if_neg fun hopen => hfirst.not_argsFit hopen.2]
    exact h
  · rw [hpush, FrameOp.enter, if_pos ⟨by rw [← h.depth]; exact hroom, hfits⟩]
    refine ⟨?_, ?_, .cons hholds h.frames⟩
    · show st.depth + 1 = calls.length + 1
      rw [h.depth]
    · show calls.length + 1 ≤ maxFrameDepth
      rw [← h.depth]
      exact hroom

/-- Behind a pop of a stack that has a frame. -/
theorem Shows.tail {frame : Frame} {rest : List Frame} (h : st.Shows calls)
    (hframes : st.frames = frame :: rest) :
    (⟨rest, st.depth - 1⟩ : FrameStack).Shows calls.tail := by
  have hall := h.frames
  have hbounded := h.bounded
  have hdepth := h.depth
  rw [hframes] at hall
  cases hall with
  | cons hfirst hrest =>
    refine ⟨?_, ?_, hrest⟩
    · rw [hdepth]
      rfl
    · exact Nat.le_trans (Nat.le_succ _) hbounded

theorem Shows.tail_of_empty (h : st.Shows calls) (hframes : st.frames = []) :
    st.Shows calls.tail := by
  have hall := h.frames
  rw [hframes] at hall
  cases hall with
  | nil => exact h

theorem pop_of_empty (hframes : st.frames = []) :
    st.pop = .error (.malformed "pop of an empty frame stack") := by
  rw [pop, hframes]

theorem pop_of_cons {frame : Frame} {rest : List Frame} (hframes : st.frames = frame :: rest) :
    st.pop = .ok ⟨rest, st.depth - 1⟩ := by
  rw [pop, hframes]

theorem Shows.pop (h : st.Shows calls) : (FrameOp.pop.apply st).Shows calls.tail := by
  cases hframes : st.frames with
  | nil =>
    simp only [FrameOp.apply, pop_of_empty hframes]
    exact h.tail_of_empty hframes
  | cons frame rest =>
    simp only [FrameOp.apply, pop_of_cons hframes]
    exact h.tail hframes

end FrameStack

/-! ## Support routines -/

namespace Support

variable {st : FrameStack} {record : ExceptionRecord}

/-- Pushing through the routine does to the stack what a push does. -/
theorem pushFrame_stack (st : FrameStack) (s : Script) (args : List Value)
    (record : ExceptionRecord) : (pushFrame st s args record).2.1 = (st.push s args).2 := by
  rw [pushFrame]
  split
  · rename_i hpush
    rw [hpush]
  · rename_i hpush
    rw [hpush]

/-- The routine reports a push that fails in the record, and leaves the record otherwise. -/
theorem pushFrame_cases (st : FrameStack) (s : Script) (args : List Value)
    (record : ExceptionRecord) :
    (∃ frame st', st.push s args = (.ok frame, st') ∧
        pushFrame st s args record = (true, st', record)) ∨
      ∃ e, st.push s args = (.error e, st) ∧
        pushFrame st s args record = (false, st, record.raise (.ofError e) none) := by
  cases hpush : st.push s args with
  | mk pushed st' =>
    cases pushed with
    | ok frame => exact .inl ⟨frame, st', rfl, by simp only [pushFrame, hpush]⟩
    | error e =>
      obtain rfl := FrameStack.push_error hpush
      exact .inr ⟨e, rfl, by simp only [pushFrame, hpush]⟩

/-- A record that has just been raised counts as raised. -/
theorem isRaised_raise (record : ExceptionRecord) (a : Abort) (place : Option Location) :
    (record.raise a place).isRaised = true := by
  obtain ⟨reason, arg, payload⟩ := a
  cases reason <;> rfl

theorem popFrame_of_cons {frame : Frame} {rest : List Frame}
    (hframes : st.frames = frame :: rest) (record : ExceptionRecord) :
    popFrame st true record = (⟨rest, st.depth - 1⟩, record) := by
  simp only [popFrame, FrameStack.pop_of_cons hframes, Bool.not_true, Bool.false_eq_true, if_false]

theorem popFrame_of_empty (hframes : st.frames = []) (record : ExceptionRecord) :
    popFrame st true record =
      (st, if record.isRaised then record
        else record.raise (.ofError (.malformed "pop of an empty frame stack")) none) := by
  simp only [popFrame, FrameStack.pop_of_empty hframes, Bool.not_true, Bool.false_eq_true,
    if_false]

theorem passedArgs_of_nonpos (args : List Value) {count : Int32} (h : count.toInt ≤ 0) :
    passedArgs args count = [] := by
  rw [passedArgs, Int.toNat_of_nonpos h, List.take_zero]

end Support

namespace FrameStack

variable {st : FrameStack} {calls : List OpenCall}

theorem Shows.popFrame (h : st.Shows calls) (hasStack : Bool) (record : ExceptionRecord) :
    (Support.popFrame st hasStack record).1.Shows (if hasStack then calls.tail else calls) := by
  cases hasStack with
  | false => exact h
  | true =>
    cases hframes : st.frames with
    | nil =>
      rw [Support.popFrame_of_empty hframes]
      exact h.tail_of_empty hframes
    | cons frame rest =>
      rw [Support.popFrame_of_cons hframes]
      exact h.tail hframes

/-- One operation does to the stack what it does to the list of open calls. -/
theorem Shows.apply (h : st.Shows calls) (op : FrameOp) :
    (op.apply st).Shows (op.entries calls) := by
  cases op with
  | push s args => exact h.push s args
  | pop => exact h.pop
  | pushFrame s args count record =>
    show (Support.pushFrame st s (Support.passedArgs args count) record).2.1.Shows _
    rw [Support.pushFrame_stack]
    exact h.push s _
  | popFrame hasStack record => exact h.popFrame hasStack record

/-- Behind any history the stack shows the open calls. -/
theorem shows_after (ops : List FrameOp) :
    (FrameOp.stackAfter ops).Shows (FrameOp.callsAfter ops) := by
  have hrun : ∀ (st : FrameStack) (calls : List OpenCall), st.Shows calls →
      (ops.foldl FrameOp.apply st).Shows (ops.foldl FrameOp.entries calls) := by
    induction ops with
    | nil => exact fun _ _ h => h
    | cons op rest ih => exact fun _ _ h => ih _ _ (h.apply op)
  exact hrun {} [] shows_empty

/-! ## The contract -/

/-- What a stack promises on which the given calls are open, the innermost first. -/
structure Promises (st : FrameStack) (calls : List OpenCall) : Prop where
  /-- The counter is the number of frames, and within the limit. -/
  depth : st.depth = st.frames.length ∧ st.depth ≤ maxFrameDepth
  /-- Every frame is as its call entered it. -/
  frames : List.Forall₂ (fun f c => f.Holds c.script c.args) st.frames calls
  /-- A push succeeds just if there is room for one more frame and, in each class, registers for
  all arguments. -/
  push_ok : ∀ s args, (∃ frame, (st.push s args).1 = .ok frame) ↔
    st.depth < maxFrameDepth ∧ ∀ cls, (ofClass cls args).length ≤ s.regs.of cls
  /-- The new frame has those before as its parents.  Its registers hold the arguments of their
  class in order, and what fresh registers hold behind them; no parameter is pending. -/
  pushed : ∀ {s args frame st'}, st.push s args = (.ok frame, st') →
    st'.frames = frame :: st.frames ∧ st'.depth = st.depth + 1 ∧ frame.script = s ∧
      frame.numParam = 0 ∧ ∀ cls k, frame.regs.get? cls k =
        if k < s.regs.of cls then some ((ofClass cls args)[k]?.getD (.zero cls)) else none
  /-- A push that fails leaves the whole stack.  The error tells the depth of a stack that is full,
  or else the first argument that does not fit. -/
  refused : ∀ {s args e st'}, st.push s args = (.error e, st') →
    st' = st ∧ ((maxFrameDepth ≤ st.depth ∧ e = .stackOverflow st.depth) ∨
      (st.depth < maxFrameDepth ∧ ∃ i cls, FirstUnfit s.regs args i cls ∧
        e = .malformed s!"argument {i} does not fit the {cls.letter} registers"))
  /-- There is nothing to pop from an empty stack, and it stays empty. -/
  pop_empty : st.frames = [] →
    st.pop = .error (.malformed "pop of an empty frame stack") ∧ FrameOp.pop.apply st = st
  /-- A pop gives back the stack below the innermost frame. -/
  pop_frame : ∀ {frame rest}, st.frames = frame :: rest → st.pop = .ok ⟨rest, rest.length⟩
  /-- The routine pushes, with the arguments that its count names.  It fails just if the push does,
  and tells the error in the record. -/
  pushFrame : ∀ s args count record,
    (∃ frame st', st.push s (Support.passedArgs args count) = (.ok frame, st') ∧
        Support.pushFrame st s (Support.passedArgs args count) record = (true, st', record)) ∨
      ∃ e, st.push s (Support.passedArgs args count) = (.error e, st) ∧
        Support.pushFrame st s (Support.passedArgs args count) record =
          (false, st, record.raise (.ofError e) none)
  /-- With a record in which nothing is raised, the routine fails just if something is then. -/
  raised : ∀ s args record, record.isRaised = false →
    ((Support.pushFrame st s args record).1 = false ↔
      (Support.pushFrame st s args record).2.2.isRaised = true)
  /-- No count that is not positive names an argument. -/
  noArgs : ∀ args count, count.toInt ≤ 0 → Support.passedArgs args count = []
  /-- Without a stack, after a push that failed, the routine to pop does nothing. -/
  popFrame_null : ∀ record, Support.popFrame st false record = (st, record)
  /-- With a stack it pops, and raises an error only where none is recorded. -/
  popFrame_frame : ∀ {frame rest record}, st.frames = frame :: rest →
    Support.popFrame st true record = (⟨rest, rest.length⟩, record)
  popFrame_empty : ∀ {record}, st.frames = [] →
    Support.popFrame st true record =
      (st, if record.isRaised then record
        else record.raise (.ofError (.malformed "pop of an empty frame stack")) none)

/-- A stack that shows the open calls keeps its promises. -/
theorem Shows.promises (h : st.Shows calls) : st.Promises calls where
  depth := by
    refine ⟨h.length_frames.symm, ?_⟩
    rw [h.depth]
    exact h.bounded
  frames := h.frames
  push_ok := st.push_ok_iff
  pushed hpush := by
    obtain ⟨_, _, rfl⟩ := push_ok hpush
    have hholds := holds_of_push hpush
    exact ⟨rfl, rfl, hholds.script, hholds.numParam, hholds.register⟩
  refused := push_error_cases
  pop_empty hframes := ⟨pop_of_empty hframes, by simp only [FrameOp.apply, pop_of_empty hframes]⟩
  pop_frame {frame rest} hframes := by
    have hlength := h.length_frames
    rw [hframes, List.length_cons] at hlength
    rw [pop_of_cons hframes, ← hlength, Nat.add_sub_cancel]
  pushFrame s args count record := Support.pushFrame_cases st s _ record
  raised s args record hrecord := by
    obtain ⟨frame, st', _, heq⟩ | ⟨e, _, heq⟩ := Support.pushFrame_cases st s args record
    · simp [heq, hrecord]
    · simp [heq, Support.isRaised_raise]
  noArgs args count := Support.passedArgs_of_nonpos args
  popFrame_null _ := rfl
  popFrame_frame {frame rest record} hframes := by
    have hlength := h.length_frames
    rw [hframes, List.length_cons] at hlength
    rw [Support.popFrame_of_cons hframes, ← hlength, Nat.add_sub_cancel]
  popFrame_empty hframes := Support.popFrame_of_empty hframes _

end FrameStack

/-- Whatever was pushed and popped before, directly or through the support routines, a frame stack
is a bounded stack of calls: it holds a frame for each open call as that call entered it, refuses
what does not fit without a trace, and gives back with a pop what was there before the push. -/
theorem frame_stack_bounded (ops : List FrameOp) :
    (FrameOp.stackAfter ops).Promises (FrameOp.callsAfter ops) :=
  (FrameStack.shows_after ops).promises

end TierVm
