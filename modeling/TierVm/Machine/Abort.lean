import TierVm.Code.Defect
import TierVm.Code.Script

/-!
# Aborts

Why an invocation ends abnormally.  An `Abort` is raised by one instruction; a `ScriptException`
is an abort together with the instruction it is attributed to; an `ExceptionRecord` is the
caller's record that is filled in and later emptied.  `Trap` adds the ways in which a run of the
machine itself can stop.
-/

namespace TierVm

/-- The kinds of abort. -/
inductive Reason where
  | other
  | readNil
  | writeNil
  | arrayOutOfBounds
  | divisionByZero
  | arrayTooLarge
  deriving DecidableEq, Repr, Inhabited

namespace Reason

/-- The number of a reason in an exception record. -/
def code : Reason → Int32
  | .other => 0
  | .readNil => 1
  | .writeNil => 2
  | .arrayOutOfBounds => 3
  | .divisionByZero => 4
  | .arrayTooLarge => 5

/-- The reason with a number. -/
def ofCode? (n : Int32) : Option Reason :=
  [other, readNil, writeNil, arrayOutOfBounds, divisionByZero, arrayTooLarge].find?
    (·.code == n)

/-- The wording of a reason. -/
def message : Reason → String
  | .other => "script error"
  | .readNil => "read from null pointer"
  | .writeNil => "write to null pointer"
  | .arrayOutOfBounds => "array index out of bounds"
  | .divisionByZero => "division by zero"
  | .arrayTooLarge => "allocation too large"

end Reason

/-- A word in hexadecimal, without leading zeros. -/
def hexWord (w : UInt64) : String := "0x" ++ String.ofList (Nat.toDigits 16 w.toNat)

/-- What an abort carries besides its reason. -/
inductive VmError where
  /-- A script threw an object. -/
  | thrown (object : Address)
  /-- A native function reported a failure. -/
  | native (text : String)
  | stackOverflow (depth : Nat)
  | verify (defect : Defect)
  | malformed (text : String)
  /-- A native function crashed. -/
  | crash (text : String)
  deriving DecidableEq, Repr

/-- The wording of an error. -/
def VmError.message : VmError → String
  | .thrown object => s!"script threw object {hexWord object}"
  | .native text => s!"native function failed: {text}"
  | .stackOverflow depth => s!"frame stack overflow at depth {depth}"
  | .verify defect => s!"malformed bytecode: {defect.message}"
  | .malformed text => s!"malformed call: {text}"
  | .crash text => s!"native code panicked: {text}"

/-- An abort raised while one instruction executes. -/
structure Abort where
  reason : Reason
  arg : Int32 := 0
  payload : Option VmError := none
  deriving DecidableEq, Repr

/-- The abort that an error gives rise to. -/
def Abort.ofError (e : VmError) : Abort := { reason := .other, payload := some e }

/-- An instruction of a function. -/
structure Location where
  function : FunctionId
  pc : Nat
  deriving DecidableEq, Repr

/-- An invocation that ended in an abort. -/
structure ScriptException where
  reason : Reason
  arg : Int32 := 0
  /-- The faulting instruction, if one is known. -/
  place : Option Location := none
  payload : Option VmError := none
  deriving DecidableEq, Repr

namespace ScriptException

/-- An abort raised at a place. -/
def ofAbort (a : Abort) (place : Option Location) : ScriptException :=
  { reason := a.reason, arg := a.arg, place, payload := a.payload }

/-- Attribute an exception that has no place to an instruction. -/
def attributeTo (e : ScriptException) (place : Location) : ScriptException :=
  match e.place with
  | none => { e with place := some place }
  | some _ => e

/-- The wording of an exception. -/
def message (e : ScriptException) : String := s!"{e.reason.message} (arg {e.arg.toInt})"

end ScriptException

/-! ## Exception records -/

/-- The record in which a caller finds an exception.  Its reason is a bare number: minus one when
nothing is raised, and any number without a meaning counts as `Reason.other`.  A record in which
nothing is raised may still hold anything else. -/
structure ExceptionRecord where
  reason : Int32 := -1
  arg : Int32 := 0
  place : Option Location := none
  payload : Option VmError := none
  deriving DecidableEq, Repr

namespace ExceptionRecord

/-- Whether an exception is recorded. -/
def isRaised (r : ExceptionRecord) : Bool := r.reason != -1

/-- The reason recorded. -/
def reason? (r : ExceptionRecord) : Option Reason :=
  if r.isRaised then some ((Reason.ofCode? r.reason).getD .other) else none

/-- Record an abort, whatever was recorded before. -/
def raise (_ : ExceptionRecord) (a : Abort) (place : Option Location) : ExceptionRecord :=
  { reason := a.reason.code, arg := a.arg, place, payload := a.payload }

/-- Record an abort without its payload: the payload recorded before stays. -/
def store (r : ExceptionRecord) (a : Abort) (place : Option Location) : ExceptionRecord :=
  { r with reason := a.reason.code, arg := a.arg, place }

/-- Attribute a recorded exception that has no place. -/
def attributeTo (r : ExceptionRecord) (place : Option Location) : ExceptionRecord :=
  if r.isRaised && r.place.isNone then { r with place } else r

/-- The recorded exception, and the record emptied. -/
def take (r : ExceptionRecord) : Option ScriptException × ExceptionRecord :=
  match r.reason? with
  | none => (none, r)
  | some reason => (some { reason, arg := r.arg, place := r.place, payload := r.payload }, {})

/-- The record of an invocation that started with an empty one. -/
def ofException? : Option ScriptException → ExceptionRecord
  | none => {}
  | some e => { reason := e.reason.code, arg := e.arg, place := e.place, payload := e.payload }

end ExceptionRecord

/-! ## Stops and traps -/

/-- Why a run has no outcome: its bound on steps was too small, the address space is used up, an
index into registers, constants, parameters or code was out of range, or an address was used that
is no live memory or no function. -/
inductive Stop where
  | outOfFuel
  | outOfMemory
  | badIndex
  | badAccess
  deriving DecidableEq, Repr

/-- Why an instruction has no successor. -/
inductive Trap where
  | abort (a : Abort)
  | stop (s : Stop)
  deriving DecidableEq, Repr

end TierVm
