import PushMachine.Limits
import PushMachine.Script

/-! # Instructions

An instruction is data: its name, the stacks it reads and writes, the number of groups it opens in a
genome, and its body. It runs only if the stacks it reads hold enough items, and `attempt` runs it
inside a transaction. -/

namespace PushMachine

/-- **An instruction**. -/
structure Instruction where
  /-- The name. -/
  name : String
  /-- The stacks it reads, once for every item that its `body` needs. -/
  inputs : List StackId
  /-- The stacks it may push to. -/
  outputs : List StackId
  /-- Number of groups it opens in a genome. -/
  groups : UInt8 := 0
  /-- What it does, under limits on sizes. -/
  body : SizeCaps → Script Unit

namespace Instruction

/-- The stacks an instruction declares as `inputs` or `outputs`. -/
def touched (instruction : Instruction) : List StackId := instruction.inputs ++ instruction.outputs

/-- Whether every stack of `inputs` holds as many items as it is listed times. -/
def ready (instruction : Instruction) (state : State) : Bool :=
  instruction.inputs.all fun id => instruction.inputs.count id ≤ state.depth id

/-- Runs the body if the instruction is `ready`, and else gives up with `.revert`. -/
def eval (instruction : Instruction) (caps : SizeCaps) (state : State) :
    Except Fault Unit × State :=
  if instruction.ready state then (instruction.body caps).run state else (.error .revert, state)

/-- Runs the instruction in a transaction of its own: the number of items pushed, as `commit` counts
them, or the failure with every change taken back by `rollback`. -/
def attempt (instruction : Instruction) (caps : SizeCaps) (state : State) :
    Except Fault Nat × State :=
  match instruction.eval caps state.openTransaction with
  | (.ok (), after) =>
    let (pushed, closed) := after.commit
    (.ok pushed, closed)
  | (.error fault, after) => (.error fault, after.rollback)

/-- The expression that refers to the instruction. -/
def toExpr (instruction : Instruction) : Expr := .instr instruction.name instruction.groups

end Instruction

end PushMachine
