import PushMachine.Display
import PushMachine.State

/-! # How runs end

A run never fails: whatever happens, it ends with a stated reason. -/

namespace PushMachine

/-- A mismatch between a program and the types of its machine. -/
inductive Mismatch where
  /-- A literal names a stack that no type has. -/
  | unregisteredLiteral (value : Value)
  /-- A literal is for a stack whose type does not accept it. -/
  | misplacedLiteral (value : Value) (type : String)
  /-- No type accepts an input, so that `Registry.literal` refuses it. -/
  | untypedInput (error : Refusal)
  /-- An operation does not fit the stacks, by the fault of `State.push` or of a script. -/
  | operation (fault : TypeFault)
  /-- The pending work is not there or is not code, by the fault of `Script.popAtom`. -/
  | pending (fault : Fault)

/-- The text of a mismatch. -/
def Mismatch.message : Mismatch → String
  | .unregisteredLiteral value => "literal " ++ value.display ++ " names an unregistered stack"
  | .misplacedLiteral value type =>
    "literal " ++ value.display ++ " does not belong on the " ++ type ++ " stack"
  | .untypedInput error => error.message
  | .operation fault => fault.message
  | .pending fault => fault.message

/-- **Why a run ended**. -/
inductive StopReason where
  /-- No work was pending. -/
  | normal
  /-- All steps of `Limits.stepLimit` were taken and work was still pending. -/
  | stepLimitExceeded
  /-- The clock is spent (`Clock.isSpent`) and work was still pending. -/
  | timeLimitExceeded
  /-- One instruction pushed more items than `Limits.growthCap`. -/
  | growthCapExceeded
  /-- No instruction has this name. -/
  | unknownInstruction (name : String)
  /-- There is no input of this index. -/
  | invalidInputIndex (index : Nat)
  /-- A value or a stack did not fit the types. -/
  | typeError (mismatch : Mismatch)
  /-- An operation addressed an item past the top of a stack (`Fault.outOfBounds`). -/
  | outOfBounds

namespace StopReason

/-- Whether a run ended because no work was pending (`.normal`). -/
def isNormal : StopReason → Bool
  | .normal => true
  | _ => false

/-- The text of a reason. -/
def message : StopReason → String
  | .normal => "normal"
  | .stepLimitExceeded => "step limit exceeded"
  | .timeLimitExceeded => "time limit exceeded"
  | .growthCapExceeded => "growth cap exceeded"
  | .unknownInstruction name => "unknown instruction: " ++ name
  | .invalidInputIndex index => "invalid input index: " ++ toString index
  | .typeError mismatch => "type error: " ++ mismatch.message
  | .outOfBounds => Fault.outOfBounds.message

end StopReason

end PushMachine
