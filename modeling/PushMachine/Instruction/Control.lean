import PushMachine.Instruction.CodeEditing

/-! # Control flow

Instructions that decide what runs next. A loop takes one turn and leaves a block behind that runs
the loop again, through a deferred reference to the instruction. Each loop comes in two forms, by
the stack that its body is taken from. -/

namespace PushMachine.Instruction

open Script

/-- Where the body of a loop is taken from. -/
inductive BodySource where
  /-- The code stack. -/
  | code
  /-- The next pending atom. -/
  | exec
  deriving DecidableEq

namespace BodySource

/-- The name of the stack. -/
def name : BodySource → String
  | .code => "code"
  | .exec => "exec"

/-- The stack. -/
def stack : BodySource → StackId
  | .code => .code
  | .exec => .exec

/-- Number of groups that the loop opens in a genome: a pending body is one. -/
def groups : BodySource → UInt8
  | .code => 0
  | .exec => 1

end BodySource

/-- The block that runs a body for the counters from `start` to `stop`. -/
def rangeBlock (source : BodySource) (start stop : Int64) (body : Atom) : Atom :=
  match source with
  | .code =>
    Atom.block [.expr (.int start), .expr (.int stop), .expr (.deferred "code_from_exec"), body,
      .expr (.deferred "code_do_range")]
  | .exec =>
    Atom.block [.expr (.int start), .expr (.int stop), .expr (.deferred "exec_do_range"), body]

/-- The counter after `current` on the way to `stop`, up or down. -/
def nextCounter (current stop : Int64) : Int64 :=
  if current < stop then current + 1 else current - 1

/-- One turn of a loop over a range: the counter is pushed and the body runs, and the other counters
wait behind it in a `rangeBlock`. -/
def rangeTurn (source : BodySource) (caps : SizeCaps) : Script Unit := do
  let body ← popAtom source.stack
  let stop ← popInt
  let current ← popInt
  if current ≠ stop then
    pushCodeWithin caps .exec (rangeBlock source (nextCounter current stop) stop body)
  pushInt current
  pushAtom .exec body

/-- A loop that runs a body as often as an integer says, by the `rangeBlock` from zero. The body
sees the counter, or with `hideCounter` it is dropped before the body runs. -/
def repeatLoop (source : BodySource) (hideCounter : Bool) (caps : SizeCaps) : Script Unit := do
  let n ← popInt
  let body ← popAtom source.stack
  if n < 1 then revert
  else
    let body := if hideCounter then Atom.block [.expr (.deferred "int_pop"), body] else body
    pushCodeWithin caps .exec (rangeBlock source 0 (n - 1) body)

/-- One turn of a loop while a truth value is true; without a truth value the loop ends. The next
turn is `.deferred "exec_while"`. -/
def whileTurn : Script Unit := do
  let body ← popAtom .exec
  if (← depth .bool) = 0 then return ()
  if !(← popBool) then return ()
  pushAtom .exec body
  pushAtom .exec (.expr (.deferred "exec_while"))
  pushAtom .exec body

/-- Runs a body once, and then as long as a truth value is true (`whileTurn`). -/
def doWhileTurn : Script Unit := do
  let body ← popAtom .exec
  pushAtom .exec body
  pushAtom .exec (.expr (.deferred "exec_while"))
  pushAtom .exec body

/-- Runs the code on top and drops it afterwards, by `.deferred "code_pop"`. -/
def callCode : Script Unit := do
  let body ← peekAtom .code
  pushAtom .exec (.expr (.deferred "code_pop"))
  pushAtom .exec body

/-- Takes the code on top and runs it. -/
def takeCode : Script Unit := do
  let body ← popAtom .code
  pushAtom .exec body

/-- Runs the second code if a truth value is true, else the top one. In `choosePending` it is the
other way around. -/
def chooseCode : Script Unit := do
  let condition ← popBool
  let first ← popAtom .code
  let second ← popAtom .code
  pushAtom .exec (if condition then second else first)

/-- Keeps the next pending atom if a truth value is true, else the one after it. -/
def choosePending : Script Unit := do
  let condition ← popBool
  let first ← popAtom .exec
  let second ← popAtom .exec
  pushAtom .exec (if condition then first else second)

/-- Runs the code on top if a truth value is true. -/
def callCodeWhen : Script Unit := do
  let condition ← popBool
  let body ← popAtom .code
  if condition then pushAtom .exec body

/-- Drops the next pending atom unless a truth value is true. -/
def keepPendingWhen : Script Unit := do
  if !(← popBool) then
    let _ ← pop .exec

/-- The block that runs `body` on every item and gathers the results, by one `"code_wrap"` and a
`"code_cons"` for every other item. -/
def mapPlan (items : Block) (body : Atom) : Atom :=
  Atom.block (
    (items.flatMap fun item => [.expr (.deferred "code_from_exec"), .expr item, body]) ++
    .expr (.deferred "code_wrap") ::
      List.replicate (items.length - 1) (.expr (.deferred "code_cons")))

/-- Runs the next pending atom on every part of a block, and gathers the results in a block
(`mapPlan`). -/
def mapBlock (caps : SizeCaps) : Script Unit := do
  let items := (← popAtom .code).toBlock
  let body ← popAtom .exec
  if items.isEmpty then pushAtom .code (.expr (.block items))
  else pushCodeWithin caps .exec (mapPlan items body)

/-- The loops `rangeTurn` and `repeatLoop` that take their body from one source. -/
def loops (source : BodySource) : List Instruction :=
  [{ name := source.name ++ "_do_range", inputs := [source.stack, .int, .int]
     outputs := [.exec, .int], groups := source.groups, body := rangeTurn source },
   { name := source.name ++ "_do_count", inputs := [source.stack, .int], outputs := [.exec]
     groups := source.groups, body := repeatLoop source false },
   { name := source.name ++ "_do_times", inputs := [source.stack, .int], outputs := [.exec]
     groups := source.groups, body := repeatLoop source true }]

/-- **The instructions that control what runs next**. -/
def control : List Instruction :=
  [{ name := "code_do", inputs := [.code], outputs := [.exec], body := fun _ => callCode },
   { name := "code_do_star", inputs := [.code], outputs := [.exec]
     body := fun _ => takeCode }] ++
  loops .code ++ loops .exec ++
  [{ name := "exec_while", inputs := [.exec], outputs := [.exec], groups := 1
     body := fun _ => whileTurn },
   { name := "exec_do_while", inputs := [.exec], outputs := [.exec], groups := 1
     body := fun _ => doWhileTurn },
   { name := "code_if", inputs := [.code, .code, .bool], outputs := [.exec]
     body := fun _ => chooseCode },
   { name := "exec_if", inputs := [.exec, .exec, .bool], outputs := [.exec], groups := 2
     body := fun _ => choosePending },
   { name := "code_when", inputs := [.code, .bool], outputs := [.exec]
     body := fun _ => callCodeWhen },
   { name := "exec_when", inputs := [.exec, .bool], outputs := [], groups := 1
     body := fun _ => keepPendingWhen },
   { name := "code_map", inputs := [.code, .exec], outputs := [.exec, .code], groups := 1
     body := mapBlock }]

end PushMachine.Instruction
