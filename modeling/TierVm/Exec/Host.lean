import TierVm.Code.Verify
import TierVm.Machine.Reference
import TierVm.Machine.ReturnSlots

/-!
# Function objects

A function object is a script or a native function.  A native function receives its arguments and
the number of its caller's slots, and behaves as a `HostProgram`: it writes results, asks for
addresses, uses the memory, calls other functions and at last succeeds or fails.  `Action` is a
small language for native functions.
-/

namespace TierVm

/-- An argument that a native function passes on. -/
inductive Passed where
  /-- One of its own arguments. -/
  | own (index : Nat)
  | fresh (v : Value)
  deriving Inhabited

/-- The behaviour of a native function. -/
inductive HostProgram where
  /-- Succeed with a number of results. -/
  | finish (count : Nat)
  | fail (error : VmError)
  /-- Write a result; a slot of another class makes the function fail. -/
  | write (slot : Nat) (v : Value) (next : HostProgram)
  /-- Ask for the address that a reference names at this moment. -/
  | locate (target : Reference) (next : Address → HostProgram)
  /-- Read bytes of memory. -/
  | load (address : Address) (count : Nat) (next : List UInt8 → HostProgram)
  /-- Replace bytes of memory. -/
  | store (address : Address) (bytes : List UInt8) (next : HostProgram)
  /-- Allocate an object; a refused size is reported back. -/
  | alloc (size : Int32) (next : Except Abort Address → HostProgram)
  /-- Call a function object, through engine `via` if one is given, into fresh slots. -/
  | call (via : Option Nat) (callee : FunctionId) (args : List Passed) (classes : List RegClass)
      (next : Except ScriptException (List Value) → HostProgram)

/-- A native function. -/
structure Native where
  name : String
  body : List Value → Nat → HostProgram

/-- A function object. -/
inductive Function where
  | script (s : LoadedScript)
  | native (n : Native)

/-- The name of a function object. -/
def Function.name : Function → String
  | .script s => s.script.name
  | .native n => n.name

/-- The function objects of a program, by number. -/
structure Program where
  functions : Array Function := #[]

namespace Program

/-- The loaded script with a number. -/
def loaded? (p : Program) (id : FunctionId) : Option LoadedScript :=
  match p.functions[id]? with
  | some (.script s) => some s
  | _ => none

/-- The script with a number. -/
def script? (p : Program) (id : FunctionId) : Option Script := (p.loaded? id).map (·.script)

/-- Number of function objects. -/
def size (p : Program) : Nat := p.functions.size

end Program

/-! ## A language for native functions -/

/-- One thing a native function does. -/
inductive Action where
  | set (slot : Nat) (v : Value)
  | setPointer (slot : Nat) (target : Reference)
  /-- The number of arguments. -/
  | argc (slot : Nat)
  /-- The wrapping sum of the integer arguments. -/
  | sum (slot : Nat)
  /-- Each argument into the slot of its number. -/
  | echo
  /-- Call a function with the same arguments and copy its results. -/
  | call (callee : FunctionId) (classes : List RegClass)
  | throw (object : Reference)
  | fail (error : VmError)

namespace Action

/-- Write values into the slots from `slot` on. -/
def writeAll : Nat → List Value → HostProgram → HostProgram
  | _, [], next => next
  | slot, v :: rest, next => .write slot v (writeAll (slot + 1) rest next)

/-- The wrapping sum of the integers among values. -/
def sumInts (args : List Value) : Int32 :=
  args.foldl (fun acc v => match v with | .int x => acc + x | _ => acc) 0

/-- The behaviour of a native function that performs actions and then succeeds. -/
def program (args : List Value) (slots : Nat) (count : Nat) : List Action → HostProgram
  | [] => .finish count
  | .set slot v :: rest => .write slot v (program args slots count rest)
  | .setPointer slot target :: rest =>
    .locate target fun p => .write slot (.pointer p) (program args slots count rest)
  | .argc slot :: rest =>
    .write slot (.int (Int32.ofNat args.length)) (program args slots count rest)
  | .sum slot :: rest => .write slot (.int (sumInts args)) (program args slots count rest)
  | .echo :: rest => writeAll 0 (args.take slots) (program args slots count rest)
  | .call callee classes :: rest =>
    .call none callee ((List.range args.length).map .own) classes fun
      | .error e => .fail (.native e.message)
      | .ok results => writeAll 0 results (program args slots count rest)
  | .throw object :: _ => .locate object fun p => .fail (.thrown p)
  | .fail e :: _ => .fail e

/-- The native function that performs actions and reports `count` results. -/
def native (name : String) (actions : List Action) (count : Nat) : Native where
  name := name
  body := fun args slots => program args slots count actions

end Action

end TierVm
