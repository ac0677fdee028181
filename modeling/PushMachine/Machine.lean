import PushMachine.InstructionSet
import PushMachine.Event

/-! # The machine

A machine takes one atom after another from the pending work. Literals go to their stacks, inputs
and the parts of blocks become pending work, and instructions are called inside a transaction. The
machine stops when no work is pending, when the steps or the time are used up, or when something
does not fit. -/

namespace PushMachine

/-- The types and the instructions of a machine. -/
structure Library where
  /-- The types. -/
  registry : Registry
  /-- The instructions. -/
  instructions : InstructionSet

/-- The core types and the core instructions. -/
def Library.core : Library := ⟨.core, .core .core⟩

/-! ## One step -/

/-- What `Library.perform` makes of one atom: the state after it, the instruction it called and how
that ended, and the reason to stop, if there is one. -/
structure Effect where
  /-- The state afterwards. -/
  state : State
  /-- The instruction that was called. -/
  call : Option (String × Outcome) := none
  /-- The reason to stop. -/
  stop : Option StopReason := none

namespace Effect

/-- Goes on with the result of an operation, or stops in `state` with a type error. -/
def ofOperation (state : State) : Except TypeFault State → Effect
  | .ok next => { state := next }
  | .error fault => { state := state, stop := some (.typeError (.operation fault)) }

end Effect

namespace Library

/-- Calls an instruction in a transaction. Pushing too much is taken back and ends the run.

An operation past the top of a stack (`Fault.outOfBounds`) is no regular end of a call: it aborts
the whole run, which then has no result, takes nothing back and reports no end of the call. Here it
is the reason `StopReason.outOfBounds`, and the call is taken back and reported as terminated, so
that the run has a last state like any other. -/
def call (library : Library) (limits : Limits) (name : String) (state : State) : Effect :=
  match library.instructions.get? name with
  | none => { state := state, stop := some (.unknownInstruction name) }
  | some instruction =>
    match instruction.eval limits.toSizeCaps state.openTransaction with
    | (.ok (), after) =>
      if limits.growthCap < after.pushed then
        { state := after.rollback, call := some (name, .terminated)
          stop := some .growthCapExceeded }
      else { state := after.commit.2, call := some (name, .committed after.commit.1) }
    | (.error .revert, after) => { state := after.rollback, call := some (name, .reverted) }
    | (.error (.typeError fault), after) =>
      { state := after.rollback, call := some (name, .terminated)
        stop := some (.typeError (.operation fault)) }
    | (.error .outOfBounds, after) =>
      { state := after.rollback, call := some (name, .terminated), stop := some .outOfBounds }

/-- Pushes a literal onto the stack `on`, if the type there accepts it. -/
def placeLiteral (library : Library) (value : Value) (on : StackId) (state : State) : Effect :=
  match library.registry.get? on with
  | none => { state := state, stop := some (.typeError (.unregisteredLiteral value)) }
  | some type =>
    if type.accepts value then .ofOperation state (state.push on value)
    else { state := state, stop := some (.typeError (.misplacedLiteral value type.name)) }

/-- Makes an input pending work: code as it is, and any other value as the `Registry.literal` of it.
-/
def fetchInput (library : Library) (index : Nat) (state : State) : Effect :=
  match state.inputs[index]? with
  | none => { state := state, stop := some (.invalidInputIndex index) }
  | some (.code atom) => .ofOperation state (state.push .exec (.code atom))
  | some value =>
    match library.registry.literal value with
    | .ok e => .ofOperation state (state.push .exec (.code e))
    | .error error => { state := state, stop := some (.typeError (.untypedInput error)) }

/-- Makes the parts of a block pending work on `.exec`, the first one on top. -/
def splice (body : Block) (state : State) : Except TypeFault State :=
  body.foldrM (fun e state => state.push .exec (.code (.expr e))) state

/-- **What one atom does**. A `.closer` does nothing. -/
def perform (library : Library) (limits : Limits) (state : State) : Atom → Effect
  | .closer => { state := state }
  | .expr (.literal value on) => library.placeLiteral value on state
  | .expr (.input index) => library.fetchInput index state
  | .expr (.instr name _) => library.call limits name state
  | .expr (.deferred name) => library.call limits name state
  | .expr (.block body) => .ofOperation state (splice body state)

end Library

/-! ## Runs -/

/-- The end of a run: the reason, the number of steps, the state, and the tracer's data. -/
structure Ending (σ : Type) where
  /-- The reason. -/
  reason : StopReason
  /-- Number of steps taken. -/
  steps : Nat
  /-- The last state. -/
  state : State
  /-- The tracer's data. -/
  data : σ

variable {σ : Type}

/-- Reports the call that a step made: `.enter`, then `.reverted` if it gave up, then `.exit`. -/
def Tracer.emitCall (tracer : Tracer σ) (step : Nat) (call : Option (String × Outcome)) (data : σ) :
    σ :=
  match call with
  | none => data
  | some (name, outcome) =>
    let entered := tracer.emit (.enter name step) data
    let noted := if outcome = .reverted then tracer.emit (.reverted name step) entered else entered
    tracer.emit (.exit name step outcome) noted

namespace Library

/-- **Runs the pending work** for at most `remaining` further steps, while the `clock` allows it. It
ends normally once `.exec` is empty, which is looked at before the steps and the time. -/
def proceed (library : Library) (limits : Limits) (clock : Clock) (tracer : Tracer σ) :
    (remaining steps : Nat) → State → σ → Ending σ
  | remaining, steps, state, data =>
    if state.depth .exec = 0 then ⟨.normal, steps, state, data⟩
    else
      match remaining with
      | 0 => ⟨.stepLimitExceeded, steps, state, data⟩
      | remaining + 1 =>
        if clock.isSpent limits steps then ⟨.timeLimitExceeded, steps, state, data⟩
        else
          match (Script.popAtom .exec).run state with
          | (.error fault, after) => ⟨.typeError (.pending fault), steps, after, data⟩
          | (.ok atom, popped) =>
            let result := library.perform limits popped atom
            let data := tracer.emit (.step (steps + 1) atom) data
            let data := tracer.emitCall (steps + 1) result.call data
            match result.stop with
            | some reason => ⟨reason, steps + 1, result.state, data⟩
            | none => proceed library limits clock tracer remaining (steps + 1) result.state data

end Library

/-- The result of a run. -/
structure RunReport where
  /-- The top item of each output stack that has one, as `Machine.output?` finds it. -/
  outputs : List (Option Value)
  /-- The printed text. -/
  stdout : String
  /-- Why the run ended. -/
  reason : StopReason
  /-- Number of steps taken. -/
  steps : Nat

/-- **A machine**: a library and a state. -/
structure Machine where
  /-- The types and instructions. -/
  library : Library
  /-- The state that the last run left. -/
  state : State

namespace Machine

/-- The machine of a library, if its instructions declare registered stacks only
(`InstructionSet.check`). -/
def ofLibrary (library : Library) : Except Refusal Machine := do
  library.instructions.check library.registry
  return ⟨library, .ofRegistry library.registry⟩

/-- The machine of the core library. -/
def core : Machine := ⟨.core, .ofRegistry .core⟩

/-- The name of the output that is the printed text. -/
def stdoutName : String := "stdout"

/-- An output by name: the printed text for `stdoutName`, or the top item of a stack. -/
def output? (machine : Machine) (name : String) : Option Value :=
  if name = stdoutName then some (.str machine.state.stdout)
  else (machine.library.registry.find? name).bind machine.state.top?

/-- The state in which the run of a program starts: a `reset` one, and with `code` as the only
pending work. -/
def load (machine : Machine) (code : Block) (inputs : List Value) :
    State × Except TypeFault State :=
  let state := machine.state.reset.withInputs inputs
  (state, state.push .exec (.code (.expr (.block code))))

/-- Runs a program from the state of `load` by `Library.proceed`, and reports the run to a tracer.
-/
def runTraced (machine : Machine) (code : Block) (inputs : List Value) (outputs : List String)
    (limits : Limits) (clock : Clock) (tracer : Tracer σ) (data : σ) : RunReport × Machine × σ :=
  let data := tracer.emit (.runStart code inputs.length) data
  let ending : Ending σ :=
    match machine.load code inputs with
    | (_, .ok state) => machine.library.proceed limits clock tracer limits.stepLimit 0 state data
    | (state, .error fault) => ⟨.typeError (.pending (.typeError fault)), 0, state, data⟩
  let data := tracer.emit (.runEnd ending.steps ending.reason) ending.data
  let after : Machine := { machine with state := ending.state }
  ({ outputs := outputs.map after.output?, stdout := ending.state.stdout
     reason := ending.reason, steps := ending.steps }, after, data)

/-- **Runs a program** as `runTraced` does, without a tracer. -/
def run (machine : Machine) (code : Block) (inputs : List Value) (outputs : List String)
    (limits : Limits) (clock : Clock) : RunReport × Machine :=
  let (result, after, _) := machine.runTraced code inputs outputs limits clock .silent ()
  (result, after)

/-- Runs a program with the outputs and the limits of its `signature`. -/
def runSigned (machine : Machine) (signature : Signature) (code : Block) (inputs : List Value)
    (clock : Clock) : RunReport × Machine :=
  machine.run code inputs signature.outputStacks signature.limits clock

end Machine

end PushMachine
