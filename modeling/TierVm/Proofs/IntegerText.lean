import Mathlib.Data.List.TakeWhile
import Mathlib.Data.Nat.Digits.Lemmas
import TierVm.Proofs.LoweringTotal

/-!
# Integers written and read

Text stands for a 32-bit integer if it is, between blank characters, a sign, any number of zeros
and the decimal digits of the magnitude.  Reading accepts exactly these texts as integers, and
everything else is left to the reading of doubles.

* `Text.decimalDigits` are the digits of a number by the theory of positional notation, and
  `Text.digits_eq` says that printing writes them.
* `Text.readUpTo_eq_some_iff` is the loop over the digits, which gives up as soon as the value is
  too large.  The value only grows, so it gives up just if the final value is too large.
* `Text.eq_zeros_append` takes a string of digits apart: leading zeros, and the digits of its value.
* `Text.readInt32?_eq_some_iff` adds the sign, `Text.trim_between` the blank characters, and
  `Text.readInt32?_trim_iff` puts all together.
* `Mode.moves_cast` is the instruction that converts a register.
* `integer_text_round_trip` is about conversions and about the instructions that make them.
-/

namespace TierVm

open Lowering

namespace Text

/-! ## Digits -/

/-- The decimal digits of a number, highest first.  Zero has one digit. -/
def decimalDigits (n : Nat) : List Char :=
  if n = 0 then ['0'] else (Nat.digits 10 n).reverse.map Nat.digitChar

/-- Printing writes the decimal digits. -/
theorem digits_eq (n : Nat) : digits n = decimalDigits n := by
  induction n using Nat.strong_induction_on with
  | _ n ih =>
    rw [digits, Nat.toDigits_eq_if (by decide)]
    by_cases hlt : n < 10
    · rw [if_pos hlt, decimalDigits]
      by_cases hzero : n = 0
      · subst hzero
        rfl
      · rw [if_neg hzero, Nat.digits_of_lt 10 n hzero hlt]
        rfl
    · have hrest : n / 10 ≠ 0 := by omega
      have hdigits := ih (n / 10) (by omega)
      rw [digits, decimalDigits, if_neg hrest] at hdigits
      have hsplit : Nat.digits 10 n = n % 10 :: Nat.digits 10 (n / 10) :=
        Nat.digits_def' (by decide) (by omega)
      rw [if_neg hlt, hdigits, decimalDigits, if_neg (by omega), hsplit, List.reverse_cons,
        List.map_append, List.map_singleton]

theorem digitValue_digitChar {n : Nat} (h : n < 10) : digitValue n.digitChar = n :=
  Nat.toNat_digitChar_sub_48_of_lt_ten h

/-- A digit is that of its value. -/
theorem digitChar_digitValue {c : Char} (h : c.isDigit = true) :
    (digitValue c).digitChar = c ∧ digitValue c < 10 := by
  have hrange : 48 ≤ c.toNat ∧ c.toNat ≤ 57 := Char.isDigit_iff_toNat.1 h
  have hlt : digitValue c < 10 := by
    rw [digitValue]
    omega
  refine ⟨Char.toNat_inj.1 ?_, hlt⟩
  rw [Nat.toNat_digitChar_of_lt_ten hlt, digitValue]
  omega

/-- Digits go on with the value so far. -/
theorem readDigits_append (acc : Nat) (cs ds : List Char) :
    readDigits acc (cs ++ ds) = readDigits (readDigits acc cs) ds :=
  List.foldl_append

theorem readDigits_zeros (k : Nat) : readDigits 0 (List.replicate k '0') = 0 := by
  induction k with
  | zero => rfl
  | succ k ih => exact ih

/-- The digits of a number stand for it. -/
theorem readDigits_digits (n : Nat) : readDigits 0 (digits n) = n := by
  induction n using Nat.strong_induction_on with
  | _ n ih =>
    rw [digits, Nat.toDigits_eq_if (by decide)]
    split
    · rename_i hlt
      show 10 * 0 + digitValue n.digitChar = n
      rw [digitValue_digitChar hlt]
      omega
    · have hrest := ih (n / 10) (by omega)
      rw [digits] at hrest
      rw [readDigits_append, hrest]
      show 10 * (n / 10) + digitValue (n % 10).digitChar = n
      rw [digitValue_digitChar (Nat.mod_lt _ (by decide))]
      omega

theorem isDigit_of_mem_digits {c : Char} {n : Nat} (h : c ∈ digits n) : c.isDigit = true :=
  Nat.isDigit_of_mem_toDigits (by decide) (by decide) h

/-- The value of digits is at least the value in front of them. -/
theorem le_readDigits (acc : Nat) (cs : List Char) : acc ≤ readDigits acc cs := by
  induction cs generalizing acc with
  | nil => exact Nat.le_refl _
  | cons c rest ih =>
    have hnext := ih (10 * acc + digitValue c)
    show acc ≤ readDigits (10 * acc + digitValue c) rest
    omega

/-- Reading with a limit comes to the value of the digits just if that is within the limit.  No
value on the way exceeds the limit then, for the value only grows. -/
theorem readUpTo_eq_some_iff {limit acc n : Nat} {cs : List Char} (hacc : acc ≤ limit) :
    readUpTo limit acc cs = some n ↔
      (∀ c ∈ cs, c.isDigit = true) ∧ readDigits acc cs = n ∧ n ≤ limit := by
  induction cs generalizing acc with
  | nil =>
    rw [readUpTo, Option.some.injEq]
    constructor
    · rintro rfl
      exact ⟨by simp, rfl, hacc⟩
    · rintro ⟨-, hn, -⟩
      exact hn
  | cons c rest ih =>
    have hvalue : readDigits acc (c :: rest) = readDigits (10 * acc + digitValue c) rest := rfl
    rw [readUpTo, hvalue]
    by_cases hdigit : c.isDigit = true
    · rw [if_pos hdigit]
      by_cases hlimit : limit < 10 * acc + digitValue c
      · rw [if_pos hlimit]
        have hle := le_readDigits (10 * acc + digitValue c) rest
        constructor
        · intro h
          cases h
        · rintro ⟨-, hn, hbound⟩
          omega
      · rw [if_neg hlimit, ih (by omega)]
        simp [hdigit]
    · rw [if_neg hdigit]
      simp [hdigit]

/-- Digits behind a number that is not zero continue its digits. -/
theorem digits_append {acc : Nat} {cs : List Char} (hacc : 0 < acc)
    (hdigits : ∀ c ∈ cs, c.isDigit = true) : digits acc ++ cs = digits (readDigits acc cs) := by
  induction cs generalizing acc with
  | nil => exact List.append_nil _
  | cons c rest ih =>
    obtain ⟨hchar, hlt⟩ := digitChar_digitValue (hdigits c (by simp))
    have hnext : digits acc ++ [c] = digits (10 * acc + digitValue c) := by
      have happend := Nat.toDigits_append_toDigits (b := 10) (by decide) hacc hlt
      rw [Nat.toDigits_of_lt_base hlt, hchar] at happend
      exact happend
    calc digits acc ++ c :: rest = (digits acc ++ [c]) ++ rest := by simp
      _ = digits (10 * acc + digitValue c) ++ rest := by rw [hnext]
      _ = digits (readDigits (10 * acc + digitValue c) rest) :=
        ih (by omega) fun x hx => hdigits x (List.mem_cons_of_mem _ hx)

/-- A string of digits is some zeros and the digits of its value. -/
theorem eq_zeros_append {cs : List Char} (hne : cs ≠ [])
    (hdigits : ∀ c ∈ cs, c.isDigit = true) :
    ∃ zeros, cs = List.replicate zeros '0' ++ digits (readDigits 0 cs) := by
  induction cs with
  | nil => exact absurd rfl hne
  | cons c rest ih =>
    obtain ⟨hchar, hlt⟩ := digitChar_digitValue (hdigits c (by simp))
    have hrest : ∀ x ∈ rest, x.isDigit = true := fun x hx => hdigits x (List.mem_cons_of_mem _ hx)
    have hvalue : readDigits 0 (c :: rest) = readDigits (digitValue c) rest := by
      show readDigits (10 * 0 + digitValue c) rest = _
      rw [Nat.mul_zero, Nat.zero_add]
    have hdigit : digits (digitValue c) = [c] := by
      rw [digits, Nat.toDigits_of_lt_base hlt, hchar]
    by_cases hzero : digitValue c = 0
    · cases rest with
      | nil =>
        refine ⟨0, ?_⟩
        rw [hvalue]
        exact hdigit.symm
      | cons d more =>
        obtain ⟨zeros, heq⟩ := ih (List.cons_ne_nil _ _) hrest
        refine ⟨zeros + 1, ?_⟩
        rw [hzero] at hchar
        rw [hvalue, hzero, List.replicate_succ, List.cons_append, ← heq, ← hchar]
        rfl
    · refine ⟨0, ?_⟩
      rw [hvalue, ← digits_append (by omega) hrest, hdigit]
      rfl

/-! ## Signs -/

/-- The signs that an integer may have.  Zero may have any. -/
def SignOf (x : Int) (sign : List Char) : Prop :=
  (x < 0 ∧ sign = ['-']) ∨ (0 ≤ x ∧ (sign = [] ∨ sign = ['+'])) ∨ (x = 0 ∧ sign = ['-'])

/-- The sign that reading splits off, and the text behind it. -/
theorem splitSign_cases (cs : List Char) :
    (∃ rest, cs = '-' :: rest ∧ splitSign cs = (true, rest)) ∨
      (∃ rest, cs = '+' :: rest ∧ splitSign cs = (false, rest)) ∨ splitSign cs = (false, cs) := by
  unfold splitSign
  split
  · exact .inl ⟨_, rfl, rfl⟩
  · exact .inr (.inl ⟨_, rfl, rfl⟩)
  · exact .inr (.inr rfl)

/-- Digits have no sign. -/
theorem splitSign_digits {cs : List Char} (hdigits : ∀ c ∈ cs, c.isDigit = true) :
    splitSign cs = (false, cs) := by
  obtain ⟨rest, rfl, -⟩ | ⟨rest, rfl, -⟩ | hplain := splitSign_cases cs
  · exact absurd (hdigits '-' (by simp)) (by decide)
  · exact absurd (hdigits '+' (by simp)) (by decide)
  · exact hplain

/-- The magnitude behind a sign is read in the range that the sign allows. -/
theorem readMagnitude_eq_some_iff {negative : Bool} {rest : List Char} {x : Int32} :
    ((readUpTo (if negative then 2147483648 else 2147483647) 0 rest).map fun n =>
        Int32.ofInt (if negative then -(n : Int) else n)) = some x ↔
      (∀ c ∈ rest, c.isDigit = true) ∧
        (readDigits 0 rest : Int) = if negative then -x.toInt else x.toInt := by
  have hlt := x.toInt_lt
  have hge := x.le_toInt
  rw [Option.map_eq_some_iff]
  constructor
  · rintro ⟨m, hcast, rfl⟩
    obtain ⟨n, hread, hm⟩ := Option.bind_eq_some_iff.1 hcast
    cases hm
    obtain ⟨hdigits, hvalue, hlimit⟩ := (readUpTo_eq_some_iff (Nat.zero_le _)).1 hread
    refine ⟨hdigits, ?_⟩
    cases negative with
    | true =>
      simp only [if_true] at hlimit ⊢
      rw [Int32.toInt_ofInt_of_le (by omega) (by omega), hvalue, Int.neg_neg]
    | false =>
      simp only [Bool.false_eq_true, if_false] at hlimit ⊢
      rw [Int32.toInt_ofInt_of_le (by omega) (by omega), hvalue]
  · rintro ⟨hdigits, hvalue⟩
    have hlimit : readDigits 0 rest ≤ if negative then 2147483648 else 2147483647 := by
      cases negative with
      | true =>
        simp only [if_true] at hvalue ⊢
        omega
      | false =>
        simp only [Bool.false_eq_true, if_false] at hvalue ⊢
        omega
    refine ⟨readDigits 0 rest, Option.bind_eq_some_iff.2 ⟨readDigits 0 rest,
      (readUpTo_eq_some_iff (Nat.zero_le _)).2 ⟨hdigits, rfl, hlimit⟩, rfl⟩, ?_⟩
    rw [hvalue]
    cases negative with
    | true => rw [if_pos rfl, if_pos rfl, Int.neg_neg, Int32.ofInt_toInt]
    | false => rw [if_neg (by decide), if_neg (by decide), Int32.ofInt_toInt]

/-- Text without blank characters is read as an integer just if it is a sign of the integer,
followed by digits that stand for its magnitude. -/
theorem readInt32?_eq_some_iff {cs : List Char} {x : Int32} :
    readInt32? cs = some x ↔
      ∃ sign ds, cs = sign ++ ds ∧ SignOf x.toInt sign ∧ ds ≠ [] ∧
        (∀ c ∈ ds, c.isDigit = true) ∧ readDigits 0 ds = x.toInt.natAbs := by
  constructor
  · intro h
    simp only [readInt32?] at h
    split at h
    · cases h
    · rename_i hne
      obtain ⟨hdigits, hvalue⟩ := readMagnitude_eq_some_iff.1 h
      rw [List.isEmpty_iff] at hne
      obtain ⟨rest, rfl, hsplit⟩ | ⟨rest, rfl, hsplit⟩ | hsplit := splitSign_cases cs
      · rw [hsplit] at hne hdigits hvalue
        simp only [if_true] at hvalue
        refine ⟨['-'], rest, rfl, ?_, hne, hdigits, by omega⟩
        rcases lt_or_ge x.toInt 0 with hneg | hpos
        · exact .inl ⟨hneg, rfl⟩
        · exact .inr (.inr ⟨by omega, rfl⟩)
      · rw [hsplit] at hne hdigits hvalue
        simp only [Bool.false_eq_true, if_false] at hvalue
        exact ⟨['+'], rest, rfl, .inr (.inl ⟨by omega, .inr rfl⟩), hne, hdigits, by omega⟩
      · rw [hsplit] at hne hdigits hvalue
        simp only [Bool.false_eq_true, if_false] at hvalue
        exact ⟨[], cs, rfl, .inr (.inl ⟨by omega, .inl rfl⟩), hne, hdigits, by omega⟩
  · rintro ⟨sign, ds, rfl, hsign, hne, hdigits, hvalue⟩
    have hread : ∀ (negative : Bool) {cs : List Char}, splitSign cs = (negative, ds) →
        (readDigits 0 ds : Int) = (if negative then -x.toInt else x.toInt) →
          readInt32? cs = some x := by
      intro negative cs hsplit hmagnitude
      simp only [readInt32?, hsplit]
      rw [if_neg (by rw [List.isEmpty_iff]; exact hne)]
      exact readMagnitude_eq_some_iff.2 ⟨hdigits, hmagnitude⟩
    obtain ⟨hneg, rfl⟩ | ⟨hpos, rfl | rfl⟩ | ⟨hzero, rfl⟩ := hsign
    · exact hread true rfl (by simp only [if_true]; omega)
    · exact hread false (splitSign_digits hdigits) (by
        simp only [Bool.false_eq_true, if_false]
        omega)
    · exact hread false rfl (by simp only [Bool.false_eq_true, if_false]; omega)
    · exact hread true rfl (by simp only [if_true]; omega)

/-! ## Blank characters -/

/-- A digit is not blank. -/
theorem isBlank_of_isDigit {c : Char} (h : c.isDigit = true) : isBlank c = false := by
  have hrange : 48 ≤ c.toNat ∧ c.toNat ≤ 57 := Char.isDigit_iff_toNat.1 h
  simp [isBlank, blankRanges]
  omega

/-- A text is its trimmed form between blank characters. -/
theorem exists_trim (cs : List Char) :
    ∃ lead trail, cs = lead ++ trim cs ++ trail ∧ (∀ c ∈ lead, isBlank c = true) ∧
      ∀ c ∈ trail, isBlank c = true := by
  refine ⟨cs.takeWhile isBlank, ((cs.dropWhile isBlank).reverse.takeWhile isBlank).reverse, ?_, ?_,
    ?_⟩
  · rw [trim, List.append_assoc, ← List.reverse_append, List.takeWhile_append_dropWhile,
      List.reverse_reverse, List.takeWhile_append_dropWhile]
  · intro c hc
    exact List.mem_takeWhile_imp hc
  · intro c hc
    exact List.mem_takeWhile_imp (List.mem_reverse.1 hc)

/-- Trimming takes blank characters away, up to the first that is not blank on either side. -/
theorem trim_between {lead mid trail : List Char} (hlead : ∀ c ∈ lead, isBlank c = true)
    (hmid : ∀ c ∈ mid, isBlank c = false) (hne : mid ≠ [])
    (htrail : ∀ c ∈ trail, isBlank c = true) : trim (lead ++ mid ++ trail) = mid := by
  have hfront : ∀ {l rest : List Char}, (∀ c ∈ l, isBlank c = true) →
      (l ++ rest).dropWhile isBlank = rest.dropWhile isBlank := by
    intro l rest hl
    exact List.dropWhile_append_of_pos hl
  have hstop : ∀ (l rest : List Char), (∀ c ∈ l, isBlank c = false) → l ≠ [] →
      (l ++ rest).dropWhile isBlank = l ++ rest := by
    intro l rest hl hne
    cases l with
    | nil => exact absurd rfl hne
    | cons c more => simp [hl c (by simp)]
  have hback : (trail.reverse ++ mid.reverse).dropWhile isBlank = mid.reverse := by
    have hrev := hstop mid.reverse [] (fun c hc => hmid c (List.mem_reverse.1 hc))
      (by simpa using hne)
    rw [List.append_nil] at hrev
    rw [hfront fun c hc => htrail c (List.mem_reverse.1 hc), hrev]
  rw [trim, List.append_assoc, hfront hlead, hstop mid trail hmid hne, List.reverse_append, hback,
    List.reverse_reverse]

/-! ## Texts of an integer -/

/-- A text stands for an integer: between blank characters it is a sign of the integer, any number
of zeros, and the decimal digits of the magnitude. -/
def Spells (x : Int) (cs : List Char) : Prop :=
  ∃ (lead sign : List Char) (zeros : Nat) (trail : List Char),
    (∀ c ∈ lead, isBlank c = true) ∧ SignOf x sign ∧ (∀ c ∈ trail, isBlank c = true) ∧
      cs = lead ++ (sign ++ (List.replicate zeros '0' ++ decimalDigits x.natAbs)) ++ trail

/-- Reading takes for an integer exactly the texts that stand for it. -/
theorem readInt32?_trim_iff {cs : List Char} {x : Int32} :
    readInt32? (trim cs) = some x ↔ Spells x.toInt cs := by
  rw [readInt32?_eq_some_iff]
  constructor
  · rintro ⟨sign, ds, htrim, hsign, hne, hdigits, hvalue⟩
    obtain ⟨lead, trail, heq, hlead, htrail⟩ := exists_trim cs
    obtain ⟨zeros, hzeros⟩ := eq_zeros_append hne hdigits
    refine ⟨lead, sign, zeros, trail, hlead, hsign, htrail, ?_⟩
    rw [← digits_eq, ← hvalue, ← hzeros, ← htrim]
    exact heq
  · rintro ⟨lead, sign, zeros, trail, hlead, hsign, htrail, rfl⟩
    rw [← digits_eq]
    have hdigits : ∀ c ∈ List.replicate zeros '0' ++ digits x.toInt.natAbs, c.isDigit = true := by
      intro c hc
      rcases List.mem_append.1 hc with hc | hc
      · rw [(List.mem_replicate.1 hc).2]
        rfl
      · exact isDigit_of_mem_digits hc
    have hne : List.replicate zeros '0' ++ digits x.toInt.natAbs ≠ [] := by
      simp [digits]
    refine ⟨sign, _, trim_between hlead ?_ (by simp [digits]) htrail, hsign, hne, hdigits, ?_⟩
    · intro c hc
      rcases List.mem_append.1 hc with hc | hc
      · obtain ⟨-, rfl⟩ | ⟨-, rfl | rfl⟩ | ⟨-, rfl⟩ := hsign
        · rw [List.mem_singleton.1 hc]
          rfl
        · cases hc
        · rw [List.mem_singleton.1 hc]
          rfl
        · rw [List.mem_singleton.1 hc]
          rfl
      · exact isBlank_of_isDigit (hdigits c hc)
    · rw [readDigits_append, readDigits_zeros, readDigits_digits]

/-- What is printed for an integer stands for it. -/
theorem spells_intText (x : Int) : Spells x (intText x) := by
  rw [intText]
  split
  · rename_i hneg
    refine ⟨[], ['-'], 0, [], by simp, .inl ⟨hneg, rfl⟩, by simp, ?_⟩
    rw [← digits_eq]
    simp
  · rename_i hneg
    refine ⟨[], [], 0, [], by simp, .inr (.inl ⟨by omega, .inl rfl⟩), by simp, ?_⟩
    rw [← digits_eq]
    simp

end Text

/-! ## Conversions -/

/-- A text that stands for an integer is read as that integer. -/
theorem stringToInt_of_spells {x : Int32} {s : String} (h : Text.Spells x.toInt s.toList) :
    stringToInt s = x := by
  simp only [stringToInt, Text.readInt32?_trim_iff.2 h]

theorem stringToInt_intToString (x : Int32) : stringToInt (intToString x) = x := by
  apply stringToInt_of_spells
  rw [intToString, String.toList_ofList]
  exact Text.spells_intText x.toInt

/-- An integer that is not negative is printed alike with and without a sign. -/
theorem uintToString_eq {x : Int32} (h : 0 ≤ x) : uintToString x = intToString x := by
  have hpos : 0 ≤ x.toInt := Int32.le_iff_toInt_le.1 h
  have hnat : x.toUInt32.toNat = x.toInt.natAbs := by
    have hcast := Int32.cast_toNatClampNeg x h
    rw [Int32.toNat_toUInt32_of_le h]
    omega
  rw [uintToString, intToString, Text.intText, if_neg (by omega), hnat]

/-! ## Instructions that convert -/

/-- The instruction at `pc` converts register `src` into register `dst`. -/
def Script.CastAt (s : Script) (pc : Nat) (kind : Cast) (dst src : Nat) : Prop :=
  ∃ i, s.code[pc]? = some i ∧ i.opcode? = some .cast ∧ Cast.ofByte? i.c = some kind ∧
    i.a.toNat = dst ∧ i.b.toNat = src

section Casts

variable {σ : Type} {s : Script} {act : Activation} {kind : Cast} {dst src : Nat}

/-- A conversion in a verified script has a register to convert. -/
theorem Script.CastAt.source_lt (hcast : s.CastAt act.pc kind dst src)
    (hverify : s.verify = .ok ()) (hfit : act.Fits s) : src < s.regs.of kind.source := by
  obtain ⟨i, hi, hop, hkind, rfl, rfl⟩ := hcast
  have hstands : StandsAt s act .cast i := ⟨Script.accepted_of_verify hverify, hfit, hi, hop⟩
  have hneeds := hstands.checked.1
  simp only [needs, hkind] at hneeds
  exact hneeds.2

/-- A conversion that has a result leaves it in its register, in both modes. -/
theorem Mode.moves_cast {effectAt : Activation → Option (Except Trap Effect)}
    (hmode : Mode s effectAt) (hverify : s.verify = .ok ()) (hfit : act.Fits s)
    (hcast : s.CastAt act.pc kind dst src) {v : Value}
    (hvalue : act.convert kind dst src = .ok (.put dst v)) (functions : Nat) (call : Invoke σ)
    (self : FunctionId) (amb : Ambient σ) :
    ∃ regs, act.regs.put? dst v = some regs ∧
      Moves functions call self effectAt (act, amb) ({ act with pc := act.pc + 1, regs }, amb) := by
  obtain ⟨i, hi, hop, hkind, rfl, rfl⟩ := hcast
  apply hmode.moves_put hverify hfit hi
  simp only [Interpreter.step, hop, Interpreter.execute, hkind]
  exact hvalue

/-- An integer register that is printed into a string register, which is read at once, comes back
as it was. -/
theorem Mode.moves_cast_round_trip {effectAt : Activation → Option (Except Trap Effect)}
    (hmode : Mode s effectAt) (hverify : s.verify = .ok ()) (hfit : act.Fits s) {mid : Nat}
    (hprint : s.CastAt act.pc .intToString mid src)
    (hread : s.CastAt (act.pc + 1) .stringToInt dst mid) (functions : Nat) (call : Invoke σ)
    (self : FunctionId) (amb : Ambient σ) :
    ∃ x regs₁ regs₂, act.regs.get? .int src = some (.int x) ∧
      act.regs.put? mid (.string (intToString x)) = some regs₁ ∧
      regs₁.put? dst (.int x) = some regs₂ ∧
      Moves functions call self effectAt (act, amb)
        ({ act with pc := act.pc + 1, regs := regs₁ }, amb) ∧
      Moves functions call self effectAt ({ act with pc := act.pc + 1, regs := regs₁ }, amb)
        ({ act with pc := act.pc + 2, regs := regs₂ }, amb) := by
  have hsrc : src < act.regs.ints.size := hfit.lt (hprint.source_lt hverify hfit)
  have hint : act.regs.ints[src]? = some act.regs.ints[src] := Array.getElem?_eq_getElem hsrc
  obtain ⟨regs₁, hregs₁, hmove₁⟩ := hmode.moves_cast hverify hfit hprint
    (v := .string (intToString act.regs.ints[src]))
    (by simp only [Activation.convert, Activation.int, hint]; rfl) functions call self amb
  have hfit₁ := fits_of_moves hmode hverify hfit hmove₁
  have hmid := Registers.get?_put?_self hregs₁
  have hstring : regs₁.strings[mid]? = some (intToString act.regs.ints[src]) := by
    obtain ⟨text, htext, heq⟩ := Option.map_eq_some_iff.1 hmid
    rw [htext, Value.string.inj heq]
  obtain ⟨regs₂, hregs₂, hmove₂⟩ := hmode.moves_cast hverify hfit₁ hread
    (v := .int (stringToInt (intToString act.regs.ints[src])))
    (by simp only [Activation.convert, Activation.string, hstring]; rfl) functions call self amb
  rw [stringToInt_intToString] at hregs₂
  exact ⟨_, regs₁, regs₂, by rw [Registers.get?, hint]; rfl, hregs₁, hregs₂, hmove₁, hmove₂⟩

end Casts

/-- Integers survive being written and read.  What is printed is read back, in conversions and in
instructions of either mode, and so is every text that stands for the integer, however many blank
characters, zeros or signs it has.  All these texts, and no others, are read as integers and not by
way of doubles.  Without a sign bit, signed and unsigned printing agree. -/
theorem integer_text_round_trip :
    (∀ x : Int32, stringToInt (intToString x) = x) ∧
      (∀ (x : Int32) (s : String),
        Text.readInt32? (Text.trim s.toList) = some x ↔ Text.Spells x.toInt s.toList) ∧
      (∀ (x : Int32) (s : String), Text.Spells x.toInt s.toList → stringToInt s = x) ∧
      (∀ x : Int32, 0 ≤ x → uintToString x = intToString x) ∧
      ∀ {σ : Type} {s : Script} {act : Activation}
        {effectAt : Activation → Option (Except Trap Effect)} {dst mid src : Nat},
        s.verify = .ok () → Mode s effectAt → act.Fits s →
          s.CastAt act.pc .intToString mid src → s.CastAt (act.pc + 1) .stringToInt dst mid →
            ∀ (functions : Nat) (call : Invoke σ) (self : FunctionId) (amb : Ambient σ),
              ∃ x regs₁ regs₂, act.regs.get? .int src = some (.int x) ∧
                regs₂.get? .int dst = some (.int x) ∧
                act.regs.put? mid (.string (intToString x)) = some regs₁ ∧
                regs₁.put? dst (.int x) = some regs₂ ∧
                Moves functions call self effectAt (act, amb)
                  ({ act with pc := act.pc + 1, regs := regs₁ }, amb) ∧
                Moves functions call self effectAt
                  ({ act with pc := act.pc + 1, regs := regs₁ }, amb)
                  ({ act with pc := act.pc + 2, regs := regs₂ }, amb) := by
  refine ⟨stringToInt_intToString, ?_, ?_, ?_, ?_⟩
  · intro x s
    exact Text.readInt32?_trim_iff
  · intro x s hspells
    exact stringToInt_of_spells hspells
  · intro x hpos
    exact uintToString_eq hpos
  · intro σ s act effectAt dst mid src hverify hmode hfit hprint hread functions call self amb
    obtain ⟨x, regs₁, regs₂, hsrc, hregs₁, hregs₂, hmove₁, hmove₂⟩ :=
      hmode.moves_cast_round_trip hverify hfit hprint hread functions call self amb
    exact ⟨x, regs₁, regs₂, hsrc, Registers.get?_put?_self hregs₂, hregs₁, hregs₂, hmove₁, hmove₂⟩

/-- A script that prints its argument and reads it back into the same register. -/
def printAndRead : Script where
  name := "print and read"
  code := #[.make .cast 0 0 4, .make .cast 0 0 7]
  regs := { int := 1, string := 1 }

/-- The least integer, with zeros and blank characters around it, and the script that converts it
there and back, compiled. -/
theorem integer_text_round_trip_least :
    stringToInt "\t -0002147483648\n" = -2147483648 ∧ uintToString 0 = intToString 0 ∧
      ∃ frame st' ops regs regs',
        ({} : FrameStack).push printAndRead [.int (-2147483648)] = (.ok frame, st') ∧
          lowerCode printAndRead = .ok ops ∧
          Moves (σ := Unit) 1 (fun _ _ _ _ _ => .error .badAccess) 0 (executeAt ops)
            (.start frame (.fresh []) {}, { tier := () })
            ({ Activation.start frame (.fresh []) {} with pc := 1, regs }, { tier := () }) ∧
          Moves (σ := Unit) 1 (fun _ _ _ _ _ => .error .badAccess) 0 (executeAt ops)
            ({ Activation.start frame (.fresh []) {} with pc := 1, regs }, { tier := () })
            ({ Activation.start frame (.fresh []) {} with pc := 2, regs := regs' },
              { tier := () }) ∧
          regs'.get? .int 0 = some (.int (-2147483648)) := by
  obtain ⟨-, -, hread, hprint, hcasts⟩ := integer_text_round_trip
  have hverify : printAndRead.verify = .ok () := by decide +kernel
  have hspells : Text.Spells (-2147483648 : Int32).toInt "\t -0002147483648\n".toList :=
    ⟨['\t', ' '], ['-'], 3, ['\n'], List.all_eq_true.1 rfl, .inl ⟨by decide, rfl⟩,
      List.all_eq_true.1 rfl, by decide⟩
  obtain ⟨frame, st', hpush, hreg⟩ : ∃ frame st',
      ({} : FrameStack).push printAndRead [.int (-2147483648)] = (.ok frame, st') ∧
        frame.regs.get? .int 0 = some (.int (-2147483648)) := ⟨_, _, rfl, rfl⟩
  obtain ⟨ops, hlower, -⟩ := lowerCode_found hverify
  have hfit := fits_start hverify hpush (.fresh []) {}
  have hwrites : printAndRead.CastAt 0 .intToString 0 0 :=
    ⟨.make .cast 0 0 4, rfl, by decide +kernel, rfl, rfl, rfl⟩
  have hreads : printAndRead.CastAt 1 .stringToInt 0 0 :=
    ⟨.make .cast 0 0 7, rfl, by decide +kernel, rfl, rfl, rfl⟩
  obtain ⟨x, regs, regs', hsrc, hdst, -, -, hmove, hmove'⟩ := hcasts hverify (.compiled hlower) hfit
    hwrites hreads 1 (fun _ _ _ _ _ => .error .badAccess) 0 { tier := () }
  have hx : x = -2147483648 := by
    rw [show (Activation.start frame (.fresh []) {}).regs = frame.regs from rfl, hreg] at hsrc
    exact (Value.int.inj (Option.some.inj hsrc)).symm
  rw [hx] at hdst
  exact ⟨hread _ _ hspells, hprint 0 (by decide), frame, st', ops, regs, regs', hpush, hlower,
    hmove, hmove', hdst⟩

end TierVm
