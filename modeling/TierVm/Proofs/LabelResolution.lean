import Mathlib.Algebra.Order.Ring.Int
import Mathlib.Data.List.Induction
import TierVm.Code.Assembler
import TierVm.Exec.Activation
import TierVm.Proofs.Accepted

/-!
# Resolution of labels

An assembler appends instructions, remembers which of them are jumps to a label, and fills in their
operands at the end.  This module says what a finished script holds, from the directives alone.

* The operand of a jump has 24 bits in three bytes.  `Instr.toInt_abc_withAbc` says that decoding
  it gives back what was encoded modulo `2 ^ 24`, and `Assembler.jumpTarget_jumpTo` when the jump
  leads where it should.
* `emissions` are the instructions that directives append, each with its line, and `LastBound` is
  the last binding of a label.  `Assembled.perform` is one directive and `assembled_run` all of
  them.
* `Assembler.resolve_cases` is the loop over the jumps: the code so far is settled in front of the
  next jump and drafted behind it.
* `labels_resolve` is the contract of `Assembler.finish`.
-/

namespace TierVm

/-! ## Operands of 24 bits -/

namespace Instr

/-- The operand bytes, put together again. -/
theorem toNat_abcRaw (i : Instr) :
    i.abcRaw.toNat = i.a.toNat + 2 ^ 8 * i.b.toNat + 2 ^ 16 * i.c.toNat := by
  have ha := i.a.toNat_lt
  have hb := i.b.toNat_lt
  have hc := i.c.toNat_lt
  have hmid : (i.b.toUInt32 <<< 8).toNat = i.b.toNat <<< 8 := by
    rw [UInt32.toNat_shiftLeft, UInt8.toNat_toUInt32]
    refine Nat.mod_eq_of_lt ?_
    simp [Nat.shiftLeft_eq]
    omega
  have hhigh : (i.c.toUInt32 <<< 16).toNat = i.c.toNat <<< 16 := by
    rw [UInt32.toNat_shiftLeft, UInt8.toNat_toUInt32]
    refine Nat.mod_eq_of_lt ?_
    simp [Nat.shiftLeft_eq]
    omega
  have hlow : (i.a.toUInt32 ||| i.b.toUInt32 <<< 8).toNat = i.a.toNat + 2 ^ 8 * i.b.toNat := by
    rw [UInt32.toNat_or, hmid, UInt8.toNat_toUInt32, Nat.or_comm,
      ← Nat.shiftLeft_add_eq_or_of_lt ha, Nat.shiftLeft_eq]
    omega
  rw [abcRaw, UInt32.toNat_or, hhigh, hlow, Nat.or_comm,
    ← Nat.shiftLeft_add_eq_or_of_lt (by omega), Nat.shiftLeft_eq]
  omega

/-- Encoding keeps the lower 24 bits. -/
theorem toNat_abcRaw_withAbc (op : UInt8) (x : Int32) :
    (withAbc op x).abcRaw.toNat = x.toUInt32.toNat % 2 ^ 24 := by
  have hlt := x.toUInt32.toNat_lt
  rw [toNat_abcRaw]
  simp only [withAbc, UInt32.toNat_toUInt8, UInt32.toNat_shiftRight, Nat.shiftRight_eq_div_pow]
  have h8 : (8 : UInt32).toNat % 32 = 8 := rfl
  have h16 : (16 : UInt32).toNat % 32 = 16 := rfl
  rw [h8, h16]
  omega

theorem toInt_shiftRight_eight (x : Int32) : (x >>> 8).toInt = x.toInt / 2 ^ 8 := by
  have hamount : ((8 : Int32).toBitVec.smod 32).toNat = 8 := by decide
  show (x >>> 8).toBitVec.toInt = _
  rw [Int32.toBitVec_shiftRight, BitVec.sshiftRight', BitVec.toInt_sshiftRight, hamount,
    Int.shiftRight_eq_div_pow]
  rfl

theorem toInt_toInt32 (x : UInt32) : x.toInt32.toInt = (x.toNat : Int).bmod (2 ^ 32) :=
  BitVec.toInt_eq_toNat_bmod _

theorem toInt_abc (i : Instr) : i.abc.toInt = (i.abcRaw.toNat : Int).bmod (2 ^ 24) := by
  have hlt : i.abcRaw.toNat < 2 ^ 24 := by
    have ha := i.a.toNat_lt
    have hb := i.b.toNat_lt
    have hc := i.c.toNat_lt
    rw [toNat_abcRaw]
    omega
  have hshift : (i.abcRaw <<< 8).toNat = i.abcRaw.toNat * 2 ^ 8 := by
    rw [UInt32.toNat_shiftLeft]
    refine (Nat.mod_eq_of_lt ?_).trans (Nat.shiftLeft_eq ..)
    simp [Nat.shiftLeft_eq]
    omega
  rw [abc, toInt_shiftRight_eight, toInt_toInt32, hshift, Int.bmod_def, Int.bmod_def]
  omega

/-- Decoding an operand gives back what was encoded, up to 24 bits. -/
theorem toInt_abc_withAbc (op : UInt8) (x : Int32) :
    (withAbc op x).abc.toInt = x.toInt.bmod (2 ^ 24) := by
  have hword : (x.toUInt32.toNat : Int) = x.toInt % 2 ^ 32 := by
    have : x.toInt = (x.toUInt32.toNat : Int).bmod (2 ^ 32) := BitVec.toInt_eq_toNat_bmod _
    have hlt := x.toUInt32.toNat_lt
    rw [this, Int.bmod_def]
    omega
  rw [toInt_abc, toNat_abcRaw_withAbc, Int.bmod_def, Int.bmod_def]
  omega

end Instr

namespace Assembler

/-- The distance of a jump is exact while indices fit a signed word. -/
theorem toInt_distance {pc t : Nat} (hpc : pc + 1 < 2 ^ 31) (ht : t < 2 ^ 31) :
    (Int32.ofNat t - (Int32.ofNat pc + 1)).toInt = (t : Int) - (pc + 1) := by
  have hone : (1 : Int32).toInt = 1 := rfl
  rw [Int32.toInt_sub, Int32.toInt_add, Int32.toInt_ofNat_of_lt ht,
    Int32.toInt_ofNat_of_lt (Nat.lt_of_succ_lt hpc), hone, Int.bmod_def, Int.bmod_def]
  omega

theorem opcode?_jumpTo (pc t : Nat) : (jumpTo pc t).opcode? = some .jmp := by
  have hbyte : Opcode.ofByte? Opcode.jmp.byte = some .jmp := by decide +kernel
  exact hbyte

/-- A jump leads to its target just if the distance has a place in the operand. -/
theorem jumpTarget_jumpTo {pc t : Nat} (hpc : pc + 1 < 2 ^ 31) (ht : t < 2 ^ 31) :
    jumpTarget pc (jumpTo pc t) = t ↔
      -2 ^ 23 ≤ (t : Int) - (pc + 1) ∧ (t : Int) - (pc + 1) < 2 ^ 23 := by
  rw [jumpTarget, jumpTo, Instr.toInt_abc_withAbc, toInt_distance hpc ht, Int.bmod_def]
  omega

end Assembler

/-! ## Directives -/

/-- What a directive appends: an instruction as it stands, or a jump to a label. -/
inductive Emission where
  | plain (i : Instr)
  | jump (label : Nat)
  deriving DecidableEq

namespace Emission

/-- The instruction before labels are resolved. -/
def draft : Emission → Instr
  | .plain i => i
  | .jump _ => .withAbc Opcode.jmp.byte 0

/-- The instruction at index `pc` when labels stand for the given indices. -/
def settled (target : Nat → Nat) (pc : Nat) : Emission → Instr
  | .plain i => i
  | .jump label => Assembler.jumpTo pc (target label)

end Emission

namespace Directive

/-- What a directive appends. -/
def emits : Directive → List Emission
  | .emit first rest => (first :: rest).map .plain
  | .jump label => [.jump label]
  | _ => []

/-- The line in force behind a directive. -/
def lineBehind (line : UInt32) : Directive → UInt32
  | .line number => number
  | _ => line

/-- The label that a directive names. -/
def label? : Directive → Option Nat
  | .bind label | .jump label => some label
  | _ => none

/-- Number of labels that a directive creates. -/
def creates : Directive → Nat
  | .newLabel => 1
  | _ => 0

/-- The constant that a directive adds. -/
def konst? : Directive → Option Value
  | .konstInt v => some (.int v)
  | .konstFloat v => some (.float v)
  | .konstString v => some (.string v)
  | .konstPointer p | .konstFunction _ p => some (.pointer p)
  | _ => none

/-- The function that a directive adds. -/
def callee? : Directive → Option FunctionId
  | .konstFunction id _ => some id
  | _ => none

end Directive

/-- What directives append, each with the line in force, when `line` is in force at first. -/
def emissions (line : UInt32) : List Directive → List (Emission × UInt32)
  | [] => []
  | d :: ds => d.emits.map (·, line) ++ emissions (d.lineBehind line) ds

/-- What directives append to an empty script, without the lines. -/
def emitted (ds : List Directive) : List Emission := (emissions 0 ds).map (·.1)

/-- Labels are named only after they have been created; `n` have been at first. -/
def Scoped (n : Nat) : List Directive → Prop
  | [] => True
  | d :: ds => (∀ label ∈ d.label?, label < n) ∧ Scoped (n + d.creates) ds

/-- Number of labels created. -/
def created (ds : List Directive) : Nat := (ds.map Directive.creates).sum

/-- The last binding of a label is to the index `t`. -/
def LastBound (ds : List Directive) (label t : Nat) : Prop :=
  ∃ before after, ds = before ++ .bind label :: after ∧ .bind label ∉ after ∧
    t = (emitted before).length

/-- The constants of a class, in the order they are added. -/
def constants (cls : RegClass) (ds : List Directive) : List Value :=
  (ds.filterMap Directive.konst?).filter (·.regClass = cls)

section Directives

variable {ds : List Directive} {d : Directive} {line : UInt32} {label t n : Nat}

theorem emissions_append (line : UInt32) (ds es : List Directive) :
    emissions line (ds ++ es) =
      emissions line ds ++ emissions (ds.foldl Directive.lineBehind line) es := by
  induction ds generalizing line with
  | nil => rfl
  | cons d ds ih =>
    rw [List.cons_append, emissions, ih, emissions, List.append_assoc]
    rfl

theorem emissions_concat (ds : List Directive) (d : Directive) :
    emissions 0 (ds ++ [d]) =
      emissions 0 ds ++ d.emits.map (·, ds.foldl Directive.lineBehind 0) := by
  rw [emissions_append, emissions, emissions, List.append_nil]

theorem emitted_concat (ds : List Directive) (d : Directive) :
    emitted (ds ++ [d]) = emitted ds ++ d.emits := by
  rw [emitted, emissions_concat, List.map_append, List.map_map]
  exact congrArg (emitted ds ++ ·) (List.map_id'' (fun _ => rfl) _)

theorem scoped_concat : Scoped n (ds ++ [d]) ↔
    Scoped n ds ∧ ∀ label ∈ d.label?, label < n + created ds := by
  induction ds generalizing n with
  | nil => simp [Scoped, created]
  | cons d' ds ih =>
    have hcreated : created (d' :: ds) = d'.creates + created ds := List.sum_cons
    rw [List.cons_append, Scoped, ih, Scoped, hcreated, ← Nat.add_assoc, and_assoc]

theorem scoped_of_append {es : List Directive} (h : Scoped n (ds ++ es)) : Scoped n ds := by
  induction ds generalizing n with
  | nil => trivial
  | cons d ds ih => exact ⟨h.1, ih h.2⟩

/-- One directive more: it is the last binding itself, or leaves the last binding. -/
theorem lastBound_concat : LastBound (ds ++ [d]) label t ↔
    (d = .bind label ∧ t = (emitted ds).length) ∨ (d ≠ .bind label ∧ LastBound ds label t) := by
  constructor
  · rintro ⟨before, after, hds, hafter, rfl⟩
    rcases List.eq_nil_or_concat after with rfl | ⟨after, d', rfl⟩
    · obtain ⟨rfl, hd⟩ := List.append_inj' hds rfl
      exact .inl ⟨List.singleton_inj.1 hd, rfl⟩
    · rw [List.concat_eq_append] at hds hafter
      rw [← List.cons_append, ← List.append_assoc] at hds
      obtain ⟨rfl, hd⟩ := List.append_inj' hds rfl
      obtain rfl := List.singleton_inj.1 hd
      rw [List.mem_append, List.mem_singleton, not_or] at hafter
      exact .inr ⟨Ne.symm hafter.2, before, after, rfl, hafter.1, rfl⟩
  · rintro (⟨rfl, rfl⟩ | ⟨hd, before, after, rfl, hafter, rfl⟩)
    · exact ⟨ds, [], rfl, List.not_mem_nil, rfl⟩
    · refine ⟨before, after ++ [d], ?_, ?_, rfl⟩
      · rw [List.append_assoc, List.cons_append]
      · rw [List.mem_append, List.mem_singleton, not_or]
        exact ⟨hafter, Ne.symm hd⟩

/-- A label that is bound has a last binding. -/
theorem exists_lastBound : (∃ t, LastBound ds label t) ↔ .bind label ∈ ds := by
  constructor
  · rintro ⟨t, before, after, rfl, -, -⟩
    simp
  · intro hmem
    induction ds using List.reverseRecOn with
    | nil => cases hmem
    | append_singleton ds d ih =>
      by_cases hd : d = .bind label
      · exact ⟨_, lastBound_concat.2 (.inl ⟨hd, rfl⟩)⟩
      · rw [List.mem_append, List.mem_singleton] at hmem
        obtain ⟨t, ht⟩ := ih (hmem.resolve_right (Ne.symm hd))
        exact ⟨t, lastBound_concat.2 (.inr ⟨hd, ht⟩)⟩

theorem LastBound.le_length (h : LastBound ds label t) : t ≤ (emissions 0 ds).length := by
  obtain ⟨before, after, rfl, -, rfl⟩ := h
  rw [emitted, List.length_map, emissions_append, List.length_append]
  exact Nat.le_add_right ..

theorem constants_append (cls : RegClass) (ds es : List Directive) :
    constants cls (ds ++ es) = constants cls ds ++ constants cls es := by
  rw [constants, List.filterMap_append, List.filter_append]
  rfl

/-- The constants in front of one are those with smaller numbers. -/
theorem getElem?_constants {v : Value} (ds es : List Directive) (h : d.konst? = some v) :
    (constants v.regClass (ds ++ d :: es))[(constants v.regClass ds).length]? = some v := by
  have hfirst : constants v.regClass (d :: es) = v :: constants v.regClass es := by
    simp [constants, List.filterMap_cons_some h]
  rw [constants_append, hfirst, List.getElem?_append_right (Nat.le_refl _), Nat.sub_self]
  rfl

theorem created_concat (ds : List Directive) (d : Directive) :
    created (ds ++ [d]) = created ds + d.creates := by
  simp [created]

end Directives

/-! ## Performing directives -/

/-- The constants of a class. -/
def ConstantPool.values (k : ConstantPool) : RegClass → List Value
  | .int => k.ints.toList.map .int
  | .float => k.floats.toList.map .float
  | .string => k.strings.toList.map .string
  | .pointer => k.pointers.toList.map .pointer

theorem ConstantPool.get?_eq_values (k : ConstantPool) (cls : RegClass) (i : Nat) :
    k.get? cls i = (k.values cls)[i]? := by
  cases cls <;> simp [get?, values]

/-- The jumps among emissions, the first of which has index `pc`, with their labels. -/
def jumps (pc : Nat) : List Emission → List (Nat × Nat)
  | [] => []
  | .plain _ :: es => jumps (pc + 1) es
  | .jump label :: es => (pc, label) :: jumps (pc + 1) es

theorem jumps_append (pc : Nat) (es es' : List Emission) :
    jumps pc (es ++ es') = jumps pc es ++ jumps (pc + es.length) es' := by
  induction es generalizing pc with
  | nil => rfl
  | cons e es ih =>
    have hpc : pc + 1 + es.length = pc + (e :: es).length := by
      rw [List.length_cons]
      omega
    cases e with
    | plain i => rw [List.cons_append, jumps, jumps, ih, hpc]
    | jump label => rw [List.cons_append, jumps, jumps, ih, hpc, List.cons_append]

theorem jumps_plain (pc : Nat) (is : List Instr) : jumps pc (is.map .plain) = [] := by
  induction is generalizing pc with
  | nil => rfl
  | cons i is ih => exact ih (pc + 1)

namespace Assembler

variable {asm : Assembler} {d : Directive}

/-- Appending instructions one by one. -/
theorem foldl_push (asm : Assembler) (is : List Instr) :
    is.foldl push asm =
      { asm with
        script := { asm.script with
          code := asm.script.code ++ is.toArray
          lines := asm.script.lines ++ (is.map fun _ => asm.line).toArray } } := by
  induction is generalizing asm with
  | nil => simp
  | cons i is ih =>
    rw [List.foldl_cons, ih]
    simp only [push, List.map_cons, List.push_append_toArray]

theorem perform_emit (asm : Assembler) (first : Instr) (rest : List Instr) :
    asm.perform (.emit first rest) = (first :: rest).foldl push asm := rfl

theorem line_perform (asm : Assembler) (d : Directive) :
    (asm.perform d).line = d.lineBehind asm.line := by
  cases d with
  | emit first rest => rw [perform_emit, foldl_push]; rfl
  | _ => rfl

theorem code_perform (asm : Assembler) (d : Directive) :
    (asm.perform d).script.code.toList = asm.script.code.toList ++ d.emits.map (·.draft) := by
  cases d with
  | emit first rest =>
    have hdraft : ((first :: rest).map Emission.plain).map (·.draft) = first :: rest := by
      rw [List.map_map]
      exact List.map_id'' (fun _ => rfl) _
    rw [perform_emit, foldl_push, Directive.emits, hdraft, Array.toList_append]
  | jump label => exact Array.toList_push
  | _ => exact (List.append_nil _).symm

theorem lines_perform (asm : Assembler) (d : Directive) :
    (asm.perform d).script.lines.toList =
      asm.script.lines.toList ++ d.emits.map fun _ => asm.line := by
  cases d with
  | emit first rest =>
    rw [perform_emit, foldl_push, Directive.emits, List.map_map, Array.toList_append]
    rfl
  | jump label => exact Array.toList_push
  | _ => exact (List.append_nil _).symm

theorem fixups_perform (asm : Assembler) (d : Directive) :
    (asm.perform d).fixups.toList = asm.fixups.toList ++ jumps asm.pc d.emits := by
  cases d with
  | emit first rest =>
    rw [perform_emit, foldl_push, Directive.emits, jumps_plain, List.append_nil]
  | jump label => exact Array.toList_push
  | _ => exact (List.append_nil _).symm

theorem size_labels_perform (asm : Assembler) (d : Directive) :
    (asm.perform d).labels.size = asm.labels.size + d.creates := by
  cases d with
  | emit first rest => rw [perform_emit, foldl_push]; rfl
  | newLabel => exact Array.size_push _
  | bind label => exact Array.size_setIfInBounds
  | _ => rfl

/-- A directive binds the label that it names, if that has been created, and no other. -/
theorem labels_perform {label t : Nat} (h : ∀ l ∈ d.label?, l < asm.labels.size) :
    (asm.perform d).labels[label]? = some (some t) ↔
      (d = .bind label ∧ t = asm.pc) ∨
        (d ≠ .bind label ∧ asm.labels[label]? = some (some t)) := by
  cases d with
  | emit first rest =>
    rw [perform_emit, foldl_push]
    simp
  | newLabel =>
    have hpush : (asm.perform .newLabel).labels = asm.labels.push none := rfl
    rw [hpush, Array.getElem?_push]
    split
    · rename_i hlabel
      simp [hlabel]
    · simp
  | bind l =>
    have hset : (asm.perform (.bind l)).labels = asm.labels.setIfInBounds l (some asm.pc) := rfl
    have hl : l < asm.labels.size := h l rfl
    rw [hset, Array.getElem?_setIfInBounds]
    by_cases heq : l = label
    · subst heq
      simp [hl, eq_comm]
    · simp [heq]
  | _ => simp [perform, addFixup, push, addPointer, addCallee, withKonst]

theorem values_perform (asm : Assembler) (d : Directive) (cls : RegClass) :
    (asm.perform d).script.konst.values cls =
      asm.script.konst.values cls ++ constants cls [d] := by
  cases d with
  | emit first rest => rw [perform_emit, foldl_push]; exact (List.append_nil _).symm
  | konstInt v | konstFloat v | konstString v | konstPointer v | konstFunction id v =>
    cases cls <;>
    simp [perform, addPointer, addCallee, withKonst, ConstantPool.values, constants,
      Directive.konst?, Value.regClass]
  | _ => exact (List.append_nil _).symm

theorem callees_perform (asm : Assembler) (d : Directive) :
    (asm.perform d).script.callees.toList =
      asm.script.callees.toList ++ [d].filterMap Directive.callee? := by
  cases d with
  | emit first rest => rw [perform_emit, foldl_push]; exact (List.append_nil _).symm
  | konstFunction id v => exact Array.toList_push
  | _ => exact (List.append_nil _).symm

/-- An assembler behind the given directives. -/
structure Assembled (ds : List Directive) (asm : Assembler) : Prop where
  line : asm.line = ds.foldl Directive.lineBehind 0
  code : asm.script.code.toList = (emitted ds).map (·.draft)
  lines : asm.script.lines.toList = (emissions 0 ds).map (·.2)
  fixups : asm.fixups.toList = jumps 0 (emitted ds)
  labels : asm.labels.size = created ds
  bound : ∀ label t, asm.labels[label]? = some (some t) ↔ LastBound ds label t
  konst : ∀ cls, asm.script.konst.values cls = constants cls ds
  callees : asm.script.callees.toList = ds.filterMap Directive.callee?

variable {ds : List Directive}

theorem Assembled.pc (h : Assembled ds asm) : asm.pc = (emitted ds).length := by
  rw [Assembler.pc, ← Array.length_toList, h.code, List.length_map]

theorem assembled_start (name : String) : Assembled [] (start name) where
  line := rfl
  code := rfl
  lines := rfl
  fixups := rfl
  labels := rfl
  bound label t := by
    constructor
    · intro h
      cases h
    · rintro ⟨before, after, h, -, -⟩
      simp at h
  konst cls := by cases cls <;> rfl
  callees := rfl

/-- One directive more. -/
theorem Assembled.perform (h : Assembled ds asm) (hscoped : Scoped 0 (ds ++ [d])) :
    Assembled (ds ++ [d]) (asm.perform d) where
  line := by rw [line_perform, h.line, List.foldl_append, List.foldl_cons, List.foldl_nil]
  code := by rw [code_perform, h.code, emitted_concat, List.map_append]
  lines := by
    rw [lines_perform, h.lines, h.line, emissions_concat, List.map_append, List.map_map]
    rfl
  fixups := by
    rw [fixups_perform, h.fixups, h.pc, emitted_concat, jumps_append, Nat.zero_add]
  labels := by rw [size_labels_perform, h.labels, created_concat]
  bound label t := by
    have hlabels : ∀ l ∈ d.label?, l < asm.labels.size := by
      rw [h.labels, ← Nat.zero_add (created ds)]
      exact (scoped_concat.1 hscoped).2
    rw [labels_perform hlabels, h.bound, h.pc, lastBound_concat]
  konst cls := by rw [values_perform, h.konst, constants_append]
  callees := by rw [callees_perform, h.callees, List.filterMap_append]

/-- All directives, from an empty script on. -/
theorem assembled_run (name : String) (hscoped : Scoped 0 ds) :
    Assembled ds ((start name).run ds) := by
  induction ds using List.reverseRecOn with
  | nil => exact assembled_start name
  | append_singleton ds d ih =>
    rw [run, List.foldl_append, List.foldl_cons, List.foldl_nil]
    exact (ih (scoped_concat.1 hscoped).1).perform hscoped

/-! ## Resolving jumps -/

/-- The index for which a label stands; any, if the label is not bound. -/
def target (labels : Array (Option Nat)) (label : Nat) : Nat := (labels[label]?.join).getD 0

/-- A label is bound. -/
def Binds (labels : Array (Option Nat)) (label : Nat) : Prop :=
  ∃ t, labels[label]? = some (some t)

/-- The label of the first jump to one that is not bound. -/
def FirstUnbound (bound : Nat → Prop) (es : List Emission) (label : Nat) : Prop :=
  ∃ before after, es = before ++ .jump label :: after ∧ ¬ bound label ∧
    ∀ l, .jump l ∈ before → bound l

/-- The code when labels stand for the given indices; the first instruction has index `pc`. -/
def settledFrom (target : Nat → Nat) (pc : Nat) : List Emission → List Instr
  | [] => []
  | e :: es => e.settled target pc :: settledFrom target (pc + 1) es

section Resolve

variable {bound : Nat → Prop} {es : List Emission} {e : Emission} {labels : Array (Option Nat)}
  {label t : Nat}

theorem FirstUnbound.cons (h : FirstUnbound bound es label) (he : ∀ l, e = .jump l → bound l) :
    FirstUnbound bound (e :: es) label := by
  obtain ⟨before, after, rfl, hlabel, hbefore⟩ := h
  refine ⟨e :: before, after, rfl, hlabel, ?_⟩
  intro l hl
  rcases List.mem_cons.1 hl with heq | hmem
  · exact he l heq.symm
  · exact hbefore l hmem

/-- Where all labels are bound there is no first that is not. -/
theorem FirstUnbound.not_forall (h : FirstUnbound bound es label) :
    ¬ ∀ l, .jump l ∈ es → bound l := by
  obtain ⟨before, after, rfl, hlabel, -⟩ := h
  intro hall
  exact hlabel (hall label (by simp))

/-- One label at most is that of the first jump to one that is not bound. -/
theorem FirstUnbound.unique {label' : Nat} (h : FirstUnbound bound es label)
    (h' : FirstUnbound bound es label') : label = label' := by
  obtain ⟨before, after, hes, hlabel, hbefore⟩ := h
  obtain ⟨before', after', hes', hlabel', hbefore'⟩ := h'
  rcases List.append_eq_append_iff.1 (hes.symm.trans hes') with
    ⟨between, hlonger, hrest⟩ | ⟨between, hlonger, hrest⟩
  · cases between with
    | nil =>
      cases hrest
      rfl
    | cons e between =>
      cases hrest
      exact absurd (hbefore' label (by simp [hlonger])) hlabel
  · cases between with
    | nil =>
      cases hrest
      rfl
    | cons e between =>
      cases hrest
      exact absurd (hbefore label' (by simp [hlonger])) hlabel'

theorem target_eq (h : labels[label]? = some (some t)) : target labels label = t := by
  rw [target, h]
  rfl

theorem getElem?_settledFrom (target : Nat → Nat) (pc k : Nat) (es : List Emission) :
    (settledFrom target pc es)[k]? = es[k]?.map (·.settled target (pc + k)) := by
  induction es generalizing pc k with
  | nil => rfl
  | cons e es ih =>
    cases k with
    | zero => rfl
    | succ k =>
      rw [settledFrom, List.getElem?_cons_succ, ih, List.getElem?_cons_succ, Nat.add_right_comm]
      rfl

theorem length_settledFrom (target : Nat → Nat) (pc : Nat) (es : List Emission) :
    (settledFrom target pc es).length = es.length := by
  induction es generalizing pc with
  | nil => rfl
  | cons e es ih => rw [settledFrom, List.length_cons, ih, List.length_cons]

/-- Filling in the next jump, behind code that is settled. -/
theorem setIfInBounds_front (front back : List Instr) (i j : Instr) :
    (front ++ i :: back).toArray.setIfInBounds front.length j = (front ++ [j] ++ back).toArray := by
  rw [List.setIfInBounds_toArray, List.set_append_right _ _ (Nat.le_refl _), Nat.sub_self,
    List.set_cons_zero, List.append_assoc, List.singleton_append]

/-- Resolving goes on behind an instruction that is settled. -/
theorem resolve_settled (front : List Instr) (es : List Emission)
    (he : ∀ l, e = .jump l → Binds labels l) :
    resolve labels (jumps front.length (e :: es)) (front ++ (e :: es).map (·.draft)).toArray =
      resolve labels (jumps (front ++ [e.settled (target labels) front.length]).length es)
        (front ++ [e.settled (target labels) front.length] ++ es.map (·.draft)).toArray := by
  rw [List.length_append, List.length_singleton]
  cases e with
  | plain i => rw [List.append_assoc]; rfl
  | jump l =>
    obtain ⟨t, ht⟩ := he l rfl
    rw [jumps, resolve, ht, Emission.settled, target_eq ht]
    exact congrArg (resolve labels _) (setIfInBounds_front ..)

/-- Resolving the jumps of the rest of the code: all labels are bound and the code is settled, or
the first that is not is named.  The induction is over the rest; the code in front is settled. -/
theorem resolve_cases (labels : Array (Option Nat)) (front : List Instr) (es : List Emission) :
    ((∀ l, .jump l ∈ es → Binds labels l) ∧
      resolve labels (jumps front.length es) (front ++ es.map (·.draft)).toArray =
        .ok (front ++ settledFrom (target labels) front.length es).toArray) ∨
      ∃ l, FirstUnbound (Binds labels) es l ∧
        resolve labels (jumps front.length es) (front ++ es.map (·.draft)).toArray =
          .error (.unboundLabel l) := by
  induction es generalizing front with
  | nil => exact .inl ⟨fun l hl => (nomatch hl), rfl⟩
  | cons e es ih =>
    by_cases he : ∀ l, e = .jump l → Binds labels l
    · rw [resolve_settled front es he]
      rcases ih (front ++ [e.settled (target labels) front.length]) with
        ⟨hall, hok⟩ | ⟨l, hfirst, herror⟩
      · refine .inl ⟨?_, ?_⟩
        · intro l hl
          rcases List.mem_cons.1 hl with heq | hmem
          · exact he l heq.symm
          · exact hall l hmem
        · rw [hok, List.length_append, List.append_assoc]
          rfl
      · exact .inr ⟨l, hfirst.cons he, herror⟩
    · push Not at he
      obtain ⟨l, rfl, hl⟩ := he
      refine .inr ⟨l, ⟨[], es, rfl, hl, fun _ h => (nomatch h)⟩, ?_⟩
      rw [jumps, resolve]
      split
      · rename_i t ht
        exact absurd ⟨t, ht⟩ hl
      · rfl

end Resolve

/-! ## Finishing -/

theorem Assembled.binds_iff (h : Assembled ds asm) (label : Nat) :
    Binds asm.labels label ↔ .bind label ∈ ds := by
  rw [← exists_lastBound]
  exact exists_congr fun t => h.bound label t

/-- Finishing: all labels are bound and the code is settled, or the first that is not is named. -/
theorem Assembled.finish_cases (h : Assembled ds asm) :
    ((∀ l, .jump l ∈ emitted ds → .bind l ∈ ds) ∧
      asm.finish = .ok { asm.script with
        code := (settledFrom (target asm.labels) 0 (emitted ds)).toArray }) ∨
      ∃ l, FirstUnbound (.bind · ∈ ds) (emitted ds) l ∧ asm.finish = .error (.unboundLabel l) := by
  have hcode : asm.script.code = ((emitted ds).map (·.draft)).toArray := by
    rw [← h.code]
  have hbinds : Binds asm.labels = (.bind · ∈ ds) := funext fun l => propext (h.binds_iff l)
  have hcases := resolve_cases asm.labels [] (emitted ds)
  rw [hbinds] at hcases
  rw [finish, h.fixups, hcode]
  rcases hcases with ⟨hall, hok⟩ | ⟨l, hfirst, herror⟩
  · rw [List.nil_append, List.length_nil] at hok
    exact .inl ⟨hall, by rw [hok]; rfl⟩
  · rw [List.nil_append, List.length_nil] at herror
    exact .inr ⟨l, hfirst, by rw [herror]⟩

/-- A constant gets the next number of its class, if that has sixteen bits. -/
theorem Assembled.answer?_konst {v : Value} (h : Assembled ds asm) (hv : d.konst? = some v)
    (hfew : (constants v.regClass ds).length < 65536) :
    asm.answer? d = some (constants v.regClass ds).length := by
  have hnumber : asm.answer? d =
      some (konstIndex (asm.script.konst.values v.regClass).length) := by
    cases d with
    | konstInt x | konstFloat x | konstString x | konstPointer x | konstFunction id x =>
      cases hv
      simp [answer?, ConstantPool.values, Value.regClass]
    | _ => cases hv
  rw [hnumber, h.konst, konstIndex, Nat.mod_eq_of_lt hfew]

section Finished

variable {s : Script} {pc label t : Nat} {line : UInt32} {i : Instr}

theorem Assembled.eq_of_finish (h : Assembled ds asm) (hs : asm.finish = .ok s) :
    s = { asm.script with
      code := (settledFrom (target asm.labels) 0 (emitted ds)).toArray } := by
  rcases h.finish_cases with ⟨-, hok⟩ | ⟨l, -, herror⟩
  · rw [hs] at hok
    exact Except.ok.inj hok
  · rw [hs] at herror
    cases herror

/-- The finished code, one instruction at a time. -/
theorem Assembled.getElem?_code (h : Assembled ds asm) (hs : asm.finish = .ok s) (pc : Nat) :
    s.code[pc]? = (emissions 0 ds)[pc]?.map (·.1.settled (target asm.labels) pc) := by
  rw [h.eq_of_finish hs, List.getElem?_toArray, getElem?_settledFrom, Nat.zero_add, emitted,
    List.getElem?_map, Option.map_map]
  rfl

theorem Assembled.size_code (h : Assembled ds asm) (hs : asm.finish = .ok s) :
    s.code.size = (emissions 0 ds).length := by
  rw [h.eq_of_finish hs, List.size_toArray, length_settledFrom, emitted, List.length_map]

theorem Assembled.lines_finish (h : Assembled ds asm) (hs : asm.finish = .ok s) :
    s.lines.toList = (emissions 0 ds).map (·.2) := by
  rw [h.eq_of_finish hs]
  exact h.lines

theorem Assembled.line_finish {e : Emission} (h : Assembled ds asm) (hs : asm.finish = .ok s)
    (hpc : (emissions 0 ds)[pc]? = some (e, line)) : s.line pc = line := by
  have hline : s.lines[pc]? = some line := by
    rw [← Array.getElem?_toList, h.lines_finish hs, List.getElem?_map, hpc]
    rfl
  rw [Script.line, Array.getD_eq_getD_getElem?, hline]
  rfl

/-- A jump is settled by the last binding of its label. -/
theorem Assembled.jump_finish (h : Assembled ds asm) (hs : asm.finish = .ok s)
    (hpc : (emissions 0 ds)[pc]? = some (.jump label, line)) (ht : LastBound ds label t) :
    s.code[pc]? = some (jumpTo pc t) := by
  rw [h.getElem?_code hs, hpc, Option.map_some, Emission.settled, target_eq ((h.bound _ _).2 ht)]

theorem jumpTarget_finish (hlength : (emissions 0 ds).length < 2 ^ 31)
    (hpc : (emissions 0 ds)[pc]? = some (.jump label, line)) (ht : LastBound ds label t) :
    jumpTarget pc (jumpTo pc t) = t ↔
      -2 ^ 23 ≤ (t : Int) - (pc + 1) ∧ (t : Int) - (pc + 1) < 2 ^ 23 := by
  have hlt : pc < (emissions 0 ds).length := (List.getElem?_eq_some_iff.1 hpc).1
  have hle : t ≤ (emissions 0 ds).length := ht.le_length
  exact jumpTarget_jumpTo (by omega) (by omega)

/-- Finishing fails just if there is a first label that is not bound. -/
theorem Assembled.finish_eq_error_iff (h : Assembled ds asm) (e : Defect) :
    asm.finish = .error e ↔
      ∃ label, e = .unboundLabel label ∧ FirstUnbound (.bind · ∈ ds) (emitted ds) label := by
  rcases h.finish_cases with ⟨hall, hok⟩ | ⟨label, hfirst, herror⟩
  · rw [hok]
    constructor
    · intro heq
      cases heq
    · rintro ⟨label, -, hfirst⟩
      exact absurd hall hfirst.not_forall
  · rw [herror]
    constructor
    · intro heq
      cases heq
      exact ⟨label, rfl, hfirst⟩
    · rintro ⟨label', rfl, hfirst'⟩
      rw [hfirst.unique hfirst']

theorem Assembled.finish_eq_ok_iff (h : Assembled ds asm) :
    (∃ s, asm.finish = .ok s) ↔ ∀ label, .jump label ∈ emitted ds → .bind label ∈ ds := by
  rcases h.finish_cases with ⟨hall, hok⟩ | ⟨label, hfirst, herror⟩
  · exact ⟨fun _ => hall, fun _ => ⟨_, hok⟩⟩
  · constructor
    · rintro ⟨s, hs⟩
      rw [herror] at hs
      cases hs
    · intro hall
      exact absurd hall hfirst.not_forall

/-- In a short script a jump leads to its label, and the verifier accepts that. -/
theorem Assembled.lands (h : Assembled ds asm) (hs : asm.finish = .ok s)
    (hsize : s.code.size ≤ 2 ^ 23) (hpc : (emissions 0 ds)[pc]? = some (.jump label, line))
    (ht : LastBound ds label t) :
    jumpTarget pc (jumpTo pc t) = t ∧ t ≤ s.code.size ∧
      s.requireAll pc (needs .jmp pc (jumpTo pc t)) = .ok () := by
  have hlt : pc < (emissions 0 ds).length := (List.getElem?_eq_some_iff.1 hpc).1
  have hle : t ≤ (emissions 0 ds).length := ht.le_length
  rw [← h.size_code hs] at hlt hle
  have htarget : jumpTarget pc (jumpTo pc t) = t :=
    (jumpTarget_jumpTo (by omega) (by omega)).2 (by omega)
  refine ⟨htarget, hle, (s.requireAll_eq_ok_iff pc).2 ?_⟩
  intro n hn
  rw [List.mem_singleton.1 hn, htarget]
  exact ⟨Int.natCast_nonneg _, Int.ofNat_le.2 hle⟩

/-- The pools hold the constants in the order they were added. -/
theorem Assembled.get?_konst (h : Assembled ds asm) (hs : asm.finish = .ok s) (cls : RegClass)
    (n : Nat) : s.konst.get? cls n = (constants cls ds)[n]? := by
  rw [ConstantPool.get?_eq_values, h.eq_of_finish hs]
  exact congrArg (·[n]?) (h.konst cls)

end Finished

/-- The contract of finishing after the given directives. -/
structure Resolves (name : String) (ds : List Directive) : Prop where
  /-- It fails just if a jump names a label that is never bound, and names the first such. -/
  fails : ∀ e, ((start name).run ds).finish = .error e ↔
    ∃ label, e = .unboundLabel label ∧ FirstUnbound (.bind · ∈ ds) (emitted ds) label
  succeeds : (∃ s, ((start name).run ds).finish = .ok s) ↔
    ∀ label, .jump label ∈ emitted ds → .bind label ∈ ds
  /-- There is one instruction for each emission. -/
  size : ∀ {s}, ((start name).run ds).finish = .ok s →
    s.code.size = (emissions 0 ds).length ∧ s.lines.size = (emissions 0 ds).length
  /-- Instructions other than jumps to labels are as they were emitted. -/
  plain : ∀ {s pc i line}, ((start name).run ds).finish = .ok s →
    (emissions 0 ds)[pc]? = some (.plain i, line) → s.code[pc]? = some i ∧ s.line pc = line
  /-- A jump leads to the last binding of its label just if that is in reach. -/
  jump : ∀ {s pc label line t}, ((start name).run ds).finish = .ok s →
    (emissions 0 ds)[pc]? = some (.jump label, line) → LastBound ds label t →
    s.line pc = line ∧ ∃ i, s.code[pc]? = some i ∧ i.opcode? = some .jmp ∧
      (jumpTarget pc i = t ↔ -2 ^ 23 ≤ (t : Int) - (pc + 1) ∧ (t : Int) - (pc + 1) < 2 ^ 23)
  /-- In a short script all jumps lead to their labels, as the verifier wants it. -/
  lands : ∀ {s pc label line t}, ((start name).run ds).finish = .ok s → s.code.size ≤ 2 ^ 23 →
    (emissions 0 ds)[pc]? = some (.jump label, line) → LastBound ds label t →
    ∃ i, s.code[pc]? = some i ∧ jumpTarget pc i = t ∧ t ≤ s.code.size ∧
      s.requireAll pc (needs .jmp pc i) = .ok ()
  /-- The number of a constant is its place in the pool, while there are not too many of them. -/
  constant : ∀ {before d after v}, ds = before ++ d :: after → d.konst? = some v →
    (constants v.regClass before).length < 65536 →
    ((start name).run before).answer? d = some (constants v.regClass before).length ∧
      ∀ {s}, ((start name).run ds).finish = .ok s →
        s.konst.get? v.regClass (constants v.regClass before).length = some v
  callees : ∀ {s}, ((start name).run ds).finish = .ok s →
    s.callees.toList = ds.filterMap Directive.callee?

end Assembler

/-- Jumps lead to the last binding of their label, whether that comes before or behind them, and
everything else is as it was emitted. -/
theorem labels_resolve (name : String) (ds : List Directive) (hscoped : Scoped 0 ds)
    (hlength : (emissions 0 ds).length < 2 ^ 31) : Assembler.Resolves name ds := by
  have h := Assembler.assembled_run name hscoped
  exact {
    fails := h.finish_eq_error_iff
    succeeds := h.finish_eq_ok_iff
    size := fun hs => ⟨h.size_code hs, by
      rw [← Array.length_toList, h.lines_finish hs, List.length_map]⟩
    plain := fun hs hpc => ⟨by rw [h.getElem?_code hs, hpc]; rfl, h.line_finish hs hpc⟩
    jump := fun hs hpc ht => ⟨h.line_finish hs hpc, _, h.jump_finish hs hpc ht,
      Assembler.opcode?_jumpTo .., Assembler.jumpTarget_finish hlength hpc ht⟩
    lands := fun hs hsize hpc ht => ⟨_, h.jump_finish hs hpc ht, h.lands hs hsize hpc ht⟩
    constant := by
      rintro before d after v rfl hv hfew
      have hbefore := Assembler.assembled_run name (scoped_of_append hscoped)
      refine ⟨hbefore.answer?_konst hv hfew, ?_⟩
      intro s hs
      rw [h.get?_konst hs]
      exact getElem?_constants before after hv
    callees := fun hs => by
      rw [h.eq_of_finish hs]
      exact h.callees }

/-- A jump forward to the end of the code, and one back to a label that was bound twice. -/
def backAndForth : List Directive :=
  [.konstInt 7, .newLabel, .newLabel, .bind 0, .one (.make .nop 0 0 0), .bind 0, .line 3, .jump 1,
    .jump 0, .bind 1]

/-- Both jumps lead to the last binding of their label. -/
theorem labels_resolve_both_ways :
    ∃ s, ((Assembler.start "loop").run backAndForth).finish = .ok s ∧
      (∃ i, s.code[1]? = some i ∧ jumpTarget 1 i = 3) ∧
      ∃ i, s.code[2]? = some i ∧ jumpTarget 2 i = 1 := by
  have hscoped : Scoped 0 backAndForth := by
    simp [backAndForth, Scoped, Directive.label?, Directive.creates, Directive.one]
  have hresolves := labels_resolve "loop" backAndForth hscoped (by decide)
  have hbound : ∀ label, .jump label ∈ emitted backAndForth → .bind label ∈ backAndForth := by
    intro label hjump
    have hlabel : label = 1 ∨ label = 0 := by
      simpa [emitted, emissions, backAndForth, Directive.emits, Directive.one] using hjump
    rcases hlabel with rfl | rfl <;> simp [backAndForth]
  obtain ⟨s, hs⟩ := hresolves.succeeds.2 hbound
  have hsize : s.code.size ≤ 2 ^ 23 := by
    rw [(hresolves.size hs).1]
    decide
  have hforth : LastBound backAndForth 1 3 := ⟨backAndForth.dropLast, [], rfl, by simp, rfl⟩
  have hback : LastBound backAndForth 0 1 :=
    ⟨backAndForth.take 5, backAndForth.drop 6, rfl, by simp [backAndForth], rfl⟩
  have hjumpForth : (emissions 0 backAndForth)[1]? = some (.jump 1, 3) := rfl
  have hjumpBack : (emissions 0 backAndForth)[2]? = some (.jump 0, 3) := rfl
  obtain ⟨i, hi, htarget, -⟩ := hresolves.lands hs hsize hjumpForth hforth
  obtain ⟨i', hi', htarget', -⟩ := hresolves.lands hs hsize hjumpBack hback
  exact ⟨s, hs, ⟨i, hi, htarget⟩, i', hi', htarget'⟩

end TierVm
