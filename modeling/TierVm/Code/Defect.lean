import TierVm.Code.RegClass

/-!
# Defects of bytecode

What the verifier, and the assembler when it resolves labels, can find wrong, with the wording of
each finding.
-/

namespace TierVm

/-- Operands whose encoding itself can be invalid. -/
inductive OperandKind where
  | registerType
  | throwMode
  | castKind
  | signWidth
  | resultType
  | compareMethod
  | floatOperation
  deriving DecidableEq, Repr

/-- The name of an operand in messages. -/
def OperandKind.text : OperandKind → String
  | .registerType => "register type"
  | .throwMode => "throw mode"
  | .castKind => "cast kind"
  | .signWidth => "sign-extension width"
  | .resultType => "result register type"
  | .compareMethod => "string compare method"
  | .floatOperation => "float operation"

/-- Most results that one call can ask for. -/
def maxReturns : Nat := 8

/-- A reason to refuse a script function. -/
inductive Defect where
  | unknownOpcode (pc : Nat) (op : UInt8)
  | registerOutOfRange (pc : Nat) (cls : RegClass) (index : Nat)
  | constantOutOfRange (pc : Nat) (cls : RegClass) (index : Nat)
  | jumpOutOfRange (pc : Nat) (target : Int)
  | invalidOperand (pc : Nat) (what : OperandKind)
  | paramOverflow (pc : Nat) (max : Nat)
  | paramUnderflow (pc : Nat) (wanted pending : Nat)
  | tooManyResults (pc : Nat) (count : Nat)
  | missingResult (pc : Nat) (expected : Nat)
  | paramMismatch (pc target pending expected : Nat)
  | unboundLabel (label : Nat)
  deriving DecidableEq, Repr

/-- A byte as two lowercase hexadecimal digits. -/
def hexByte (b : UInt8) : String :=
  String.ofList [Nat.digitChar (b.toNat / 16), Nat.digitChar (b.toNat % 16)]

/-- The wording of a defect. -/
def Defect.message : Defect → String
  | .unknownOpcode pc op => s!"unknown opcode 0x{hexByte op} at instruction {pc}"
  | .registerOutOfRange pc cls index =>
    s!"register {cls.letter}{index} out of range at instruction {pc}"
  | .constantOutOfRange pc cls index =>
    s!"constant k{cls.letter}{index} out of range at instruction {pc}"
  | .jumpOutOfRange pc target => s!"jump target {target} out of range at instruction {pc}"
  | .invalidOperand pc what => s!"invalid {what.text} operand at instruction {pc}"
  | .paramOverflow pc max => s!"parameter area overflow at instruction {pc} (max_param {max})"
  | .paramUnderflow pc wanted pending =>
    s!"call at instruction {pc} takes {wanted} parameters but only {pending} are pending"
  | .tooManyResults pc count =>
    s!"call at instruction {pc} requests {count} results (max {maxReturns})"
  | .missingResult pc expected =>
    s!"call at instruction {pc} is not followed by {expected} RESULT instructions"
  | .paramMismatch pc target pending expected =>
    s!"branch at instruction {pc} reaches {target} with {pending} pending parameters, expected {expected}"
  | .unboundLabel label => s!"label {label} was never bound"

end TierVm
