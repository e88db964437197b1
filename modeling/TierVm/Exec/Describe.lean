import TierVm.Exec.Host
import TierVm.Text.Quoted

/-!
# Descriptions of function objects

A one-line description for diagnostics: the kind of the function, its quoted name and the sizes of
a script.
-/

namespace TierVm

open TierVm.Text

/-- The sizes of the register files. -/
def RegisterCounts.describe (n : RegisterCounts) : String :=
  String.join
    ["RegisterCounts \x7b int: ", toString n.int.toNat, ", float: ", toString n.float.toNat,
      ", string: ", toString n.string.toNat, ", pointer: ", toString n.pointer.toNat, " \x7d"]

/-- A script without its number. -/
def Script.describe (s : Script) : String :=
  String.join
    ["ScriptFunction \x7b id: FunctionId(_), name: ", quoted s.name, ", instructions: ",
      toString s.code.size, ", regs: ", s.regs.describe, ", max_param: ",
      toString s.maxParam.toNat, " \x7d"]

/-- The description of a function object. -/
def Function.describe : Function → String
  | .script s => s!"Script({s.script.describe})"
  | .native n => s!"Native({quoted n.name})"

end TierVm
