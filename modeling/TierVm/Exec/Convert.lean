import TierVm.Arith.Convert
import TierVm.Exec.Activation

/-!
# Conversions between registers

Both ways of executing a function convert registers by the same rules.
-/

namespace TierVm

/-- Convert register `src` into register `dst`. -/
def Activation.convert (act : Activation) (kind : Cast) (dst src : Nat) : Except Trap Effect :=
  match kind with
  | .intToFloat => do return .put dst (.float (← act.int src).toFloat)
  | .uintToFloat => do return .put dst (.float (← act.int src).toUInt32.toFloat)
  | .floatToInt => do return .put dst (.int (floatToInt (← act.float src)))
  | .floatToUint => do return .put dst (.int (floatToUint (← act.float src)))
  | .intToString => do return .put dst (.string (intToString (← act.int src)))
  | .uintToString => do return .put dst (.string (uintToString (← act.int src)))
  | .floatToString => do return .put dst (.string (floatToString (← act.float src)))
  | .stringToInt => do return .put dst (.int (stringToInt (← act.string src)))
  | .stringToFloat => do return .put dst (.float (stringToFloat (← act.string src)))

end TierVm
