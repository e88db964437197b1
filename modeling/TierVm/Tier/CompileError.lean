import TierVm.Code.Defect

/-!
# Compilation errors

Why a function could not be compiled, with the wording of each reason.  A function that cannot be
compiled is interpreted.
-/

namespace TierVm

/-- A reason not to have compiled code. -/
inductive CompileError where
  | unknownOpcode (pc : Nat) (op : UInt8)
  | verify (defect : Defect)
  | malformed (name reason : String)
  /-- Code generation broke down. -/
  | codegen (text : String)
  | cacheFull (size limit : Nat)
  | disabled
  deriving DecidableEq, Repr

/-- The error that a defect of the bytecode gives rise to. -/
def CompileError.ofDefect : Defect → CompileError
  | .unknownOpcode pc op => .unknownOpcode pc op
  | d => .verify d

/-- The wording of an error. -/
def CompileError.message : CompileError → String
  | .unknownOpcode pc op => s!"unknown opcode 0x{hexByte op} at instruction {pc}"
  | .verify defect => s!"bytecode rejected: {defect.message}"
  | .malformed name reason => s!"malformed function {name}: {reason}"
  | .codegen text => s!"code generation failed: {text}"
  | .cacheFull size limit => s!"code cache full ({size} bytes in use, limit {limit})"
  | .disabled => "JIT compilation is disabled"

end TierVm
