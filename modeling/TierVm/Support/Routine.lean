import TierVm.Arith.Convert
import TierVm.Arith.Float
import TierVm.Machine.Frame
import TierVm.Machine.Reference
import TierVm.Support.Abi

/-!
# Support routines

The routines that compiled code calls instead of doing a job in line.  Routines that can fail
report it in the caller's exception record.
-/

namespace TierVm

/-- The support routines. -/
inductive Routine where
  | pushFrame | popFrame | call | allocObject | throwObject
  | stringAssign | stringConcat | stringLen | stringCompare
  | stringFromInt | stringFromUint | stringFromFloat | stringToInt | stringToFloat
  | setReturnString | floatPow | floatAtan2 | floatOp
  deriving DecidableEq, Repr, Inhabited

namespace Routine

/-- One routine of the table: its symbol, its long name and its signature. -/
structure Row where
  routine : Routine
  symbol : String
  name : String
  signature : Signature

/-- The routines in the order of their numbers. -/
def table : Array Row := #[
  ⟨.pushFrame, "push_frame", "PushFrame", ⟨[.i64, .i64, .i32, .i64], [.i64]⟩⟩,
  ⟨.popFrame, "pop_frame", "PopFrame", ⟨[.i64, .i64], []⟩⟩,
  ⟨.call, "call", "Call", ⟨[.i64, .i64, .i32, .i64, .i32, .i64, .i64], [.i32]⟩⟩,
  ⟨.allocObject, "alloc_object", "AllocObject", ⟨[.i32, .i64, .i64], [.i64]⟩⟩,
  ⟨.throwObject, "throw_object", "ThrowObject", ⟨[.i64, .i64, .i64], []⟩⟩,
  ⟨.stringAssign, "string_assign", "StringAssign", ⟨[.i64, .i64], []⟩⟩,
  ⟨.stringConcat, "string_concat", "StringConcat", ⟨[.i64, .i64, .i64], []⟩⟩,
  ⟨.stringLen, "string_len", "StringLen", ⟨[.i64], [.i32]⟩⟩,
  ⟨.stringCompare, "string_compare", "StringCompare", ⟨[.i32, .i64, .i64], [.i32]⟩⟩,
  ⟨.stringFromInt, "string_from_int", "StringFromInt", ⟨[.i64, .i32], []⟩⟩,
  ⟨.stringFromUint, "string_from_uint", "StringFromUint", ⟨[.i64, .i32], []⟩⟩,
  ⟨.stringFromFloat, "string_from_float", "StringFromFloat", ⟨[.i64, .f64], []⟩⟩,
  ⟨.stringToInt, "string_to_int", "StringToInt", ⟨[.i64], [.i32]⟩⟩,
  ⟨.stringToFloat, "string_to_float", "StringToFloat", ⟨[.i64], [.f64]⟩⟩,
  ⟨.setReturnString, "set_return_string", "SetReturnString", ⟨[.i64, .i64], []⟩⟩,
  ⟨.floatPow, "float_pow", "FloatPow", ⟨[.f64, .f64], [.f64]⟩⟩,
  ⟨.floatAtan2, "float_atan2", "FloatAtan2", ⟨[.f64, .f64], [.f64]⟩⟩,
  ⟨.floatOp, "float_op", "FloatOp", ⟨[.i32, .f64], [.f64]⟩⟩]

end Routine

namespace Support

/-! ## Routines with an exception record -/

/-- The arguments that a pointer and a count stand for. -/
def passedArgs (args : List Value) (count : Int32) : List Value := args.take count.toInt.toNat

/-- Push a frame; whether it succeeded. -/
def pushFrame (st : FrameStack) (s : Script) (args : List Value) (r : ExceptionRecord) :
    Bool × FrameStack × ExceptionRecord :=
  match st.push s args with
  | (.ok _, st') => (true, st', r)
  | (.error e, st') => (false, st', r.raise (.ofError e) none)

/-- Pop a frame; without a stack, after a push that failed, do nothing.  An exception that is
recorded already is kept. -/
def popFrame (st : FrameStack) (hasStack : Bool) (r : ExceptionRecord) :
    FrameStack × ExceptionRecord :=
  if !hasStack then (st, r)
  else
    match st.pop with
    | .ok st' => (st', r)
    | .error e => (st, if r.isRaised then r else r.raise (.ofError e) none)

/-- Allocate an object; null after a failure. -/
def allocObject (m : Memory) (size : Int32) (place : Option Location) (r : ExceptionRecord) :
    Except Stop (Address × Memory × ExceptionRecord) :=
  match m.alloc size with
  | .ok (p, m') => .ok (p, m', r)
  | .error (.abort a) => .ok (0, m, r.raise a place)
  | .error (.stop s) => .error s

/-- Throw an object. -/
def throwObject (object : Address) (place : Option Location) (r : ExceptionRecord) :
    ExceptionRecord :=
  r.raise (.ofError (.thrown object)) place

end Support

/-! ## Routines on strings and doubles -/

/-- A call of a routine on string variables, which are named by number, and plain numbers. -/
inductive RoutineCall where
  | stringAssign (dst src : Nat)
  | stringConcat (dst l r : Nat)
  | stringLen (src : Nat)
  | stringCompare (flags : Int32) (l r : Nat)
  | stringFromInt (dst : Nat) (x : Int32)
  | stringFromUint (dst : Nat) (x : Int32)
  | stringFromFloat (dst : Nat) (x : Float)
  | stringToInt (src : Nat)
  | stringToFloat (src : Nat)
  | setReturnString (dst src : Nat)
  | floatPow (x y : Float)
  | floatAtan2 (y x : Float)
  | floatOp (code : Int32) (x : Float)

/-- The result of a routine, if it has one, and the variables behind it. -/
def RoutineCall.run (vars : Array String) : RoutineCall → Option Value × Array String
  | .stringAssign dst src | .setReturnString dst src =>
    (none, vars.setIfInBounds dst (vars.getD src ""))
  | .stringConcat dst l r => (none, vars.setIfInBounds dst (vars.getD l "" ++ vars.getD r ""))
  | .stringLen src => (some (.int (stringLength (vars.getD src ""))), vars)
  | .stringCompare flags l r =>
    let outcome := compareStrings flags.toUInt32.toUInt8 (vars.getD l "") (vars.getD r "")
    (some (.int (if outcome then 1 else 0)), vars)
  | .stringFromInt dst x => (none, vars.setIfInBounds dst (intToString x))
  | .stringFromUint dst x => (none, vars.setIfInBounds dst (uintToString x))
  | .stringFromFloat dst x => (none, vars.setIfInBounds dst (floatToString x))
  | .stringToInt src => (some (.int (TierVm.stringToInt (vars.getD src ""))), vars)
  | .stringToFloat src => (some (.float (TierVm.stringToFloat (vars.getD src ""))), vars)
  | .floatPow x y => (some (.float (x.pow y)), vars)
  | .floatAtan2 y x => (some (.float (toDegrees (Float.atan2 y x))), vars)
  | .floatOp code x => (some (.float (flop code.toUInt32.toUInt8 x)), vars)

end TierVm
