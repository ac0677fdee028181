import PushMachine.Registry

/-! # The state of the machine

A state holds one stack per registered type, the inputs of the run, and the text printed so far.
While a transaction is open every change leaves an entry in a journal, and a rollback undoes the
entries from the last to the first, so that an instruction that gives up has changed nothing.

Stacks are lists with the top item first. A stack number without a type has no stack. -/

namespace PushMachine

/-- A mismatch between an instruction and the stacks it works on. -/
inductive TypeFault where
  /-- There is no stack of this number, so that `State.stack?` is `none`. -/
  | missingStack (id : StackId)
  /-- A stack for code holds a value of another `Value.kind`. -/
  | notCode (id : StackId) (kind : String)
  /-- The stack `Item.stack` of a type of items holds a value of another kind. -/
  | elementMismatch
  /-- The stack `Item.vector` of a type of items holds a value of another kind. -/
  | vectorMismatch
  /-- Any other mismatch, in its own words. -/
  | other (detail : String)
  deriving DecidableEq

/-- The text of a mismatch. -/
def TypeFault.message : TypeFault → String
  | .missingStack id => "no stack registered at index " ++ toString id.index
  | .notCode id kind => "stack " ++ toString id.index ++ " holds a value of kind " ++ kind
  | .elementMismatch => "element stack mismatch"
  | .vectorMismatch => "vector stack mismatch"
  | .other detail => detail

/-- Why an operation on the state fails. -/
inductive Fault where
  /-- The operation has no effect and the program goes on. -/
  | revert
  /-- The operation does not fit the stacks. -/
  | typeError (fault : TypeFault)
  /-- The operation addressed an item past the top of a stack; see `State.tooDeep`. -/
  | outOfBounds
  deriving DecidableEq

/-- The text of a failure. -/
def Fault.message : Fault → String
  | .revert => "instruction reverted"
  | .typeError fault => "type error: " ++ fault.message
  | .outOfBounds => "index out of bounds"

/-- One change of a state, with what `State.takeBack` needs to undo it. -/
inductive Change where
  /-- An item was pushed. -/
  | pushed (id : StackId)
  /-- An item was popped. -/
  | popped (id : StackId) (value : Value)
  /-- An item was inserted under `depth` others. -/
  | inserted (id : StackId) (depth : Nat)
  /-- An item was removed from under `depth` others. -/
  | removed (id : StackId) (depth : Nat) (value : Value)
  /-- The items of a stack were thrown away. -/
  | flushed (id : StackId) (items : List Value)
  /-- Text was printed after the first `bytes` bytes. -/
  | printed (bytes : Nat)

/-- **The state** of a machine. -/
structure State where
  /-- The stacks by `StackId.index`, each with the top item first. -/
  slots : List (Option (List Value))
  /-- The inputs of the run. -/
  inputs : List Value := []
  /-- The text printed so far. -/
  stdout : String := ""
  /-- Number of characters of `stdout`, counted as they are printed. -/
  stdoutLength : Nat := 0
  /-- The changes of the open transaction, last first. It is kept by `State.note`. -/
  journal : List Change := []
  /-- A transaction is open. -/
  isOpen : Bool := false
  /-- Number of items pushed or inserted since `State.openTransaction`. -/
  pushed : Nat := 0

namespace State

/-- The state with an empty stack for every type of `registry.slots`. -/
def ofRegistry (registry : Registry) : State :=
  { slots := registry.slots.map fun slot => slot.map fun _ => [] }

/-- Empties every stack and forgets the inputs, the printed text and the transaction. -/
def reset (state : State) : State :=
  { slots := state.slots.map fun slot => slot.map fun _ => [] }

/-- Replaces the inputs. -/
def withInputs (state : State) (inputs : List Value) : State := { state with inputs := inputs }

/-- The items of a stack, top first, or `none` if there is no stack of the number. -/
def stack? (state : State) (id : StackId) : Option (List Value) := state.slots[id.index]?.join

/-- Number of items of a stack; a stack that does not exist has `0`. -/
def depth (state : State) (id : StackId) : Nat := ((state.stack? id).map List.length).getD 0

/-- The top item of a stack. -/
def top? (state : State) (id : StackId) : Option Value := (state.stack? id).bind List.head?

/-- Replaces the items of a stack. It leaves the `journal` alone. -/
def setStack (state : State) (id : StackId) (items : List Value) : State :=
  { state with slots := state.slots.set id.index (some items) }

/-- Equality of states: equal `slots`, `inputs` and `stdout`. -/
def beq (a b : State) : Bool :=
  a.slots == b.slots && a.inputs == b.inputs && a.stdout == b.stdout

instance : BEq State := ⟨beq⟩

/-! ## Transactions -/

/-- Notes a change in the `journal` if a transaction is open. -/
def note (state : State) (change : Change) : State :=
  if state.isOpen then { state with journal := change :: state.journal } else state

/-- Opens a transaction. -/
def openTransaction (state : State) : State :=
  { state with journal := [], isOpen := true, pushed := 0 }

/-- Closes the transaction and keeps its changes. The count `pushed` is returned. -/
def commit (state : State) : Nat × State :=
  (state.pushed, { state with journal := [], isOpen := false, pushed := 0 })

/-- The longest beginning of a text that has at most `bytes` bytes. -/
def takeBytes : Nat → List Char → List Char
  | _, [] => []
  | bytes, c :: rest => if c.utf8Size ≤ bytes then c :: takeBytes (bytes - c.utf8Size) rest else []

/-- Applies `change` to the items of a stack, if the stack exists. -/
def modifyStack (state : State) (id : StackId) (change : List Value → List Value) : State :=
  match state.stack? id with
  | some items => state.setStack id (change items)
  | none => state

/-- Takes back one change. -/
def takeBack (state : State) : Change → State
  | .pushed id => state.modifyStack id List.tail
  | .popped id value => state.modifyStack id (value :: ·)
  | .inserted id depth => state.modifyStack id (·.eraseIdx depth)
  | .removed id depth value => state.modifyStack id (·.insertIdx depth value)
  | .flushed id items => state.modifyStack id fun _ => items
  | .printed bytes =>
    let kept := String.ofList (takeBytes bytes state.stdout.toList)
    { state with stdout := kept, stdoutLength := kept.length }

/-- Closes the transaction and takes back the changes of its `journal`, the last one first. -/
def rollback (state : State) : State :=
  state.journal.foldl takeBack { state with journal := [], isOpen := false, pushed := 0 }

/-- A copy of the state outside any transaction. -/
def snapshot (state : State) : State :=
  { state with journal := [], isOpen := false, pushed := 0 }

/-! ## Operations -/

/-- The items of a stack that has to exist, or the fault `.missingStack`. -/
def items (state : State) (id : StackId) : Except TypeFault (List Value) :=
  match state.stack? id with
  | some items => .ok items
  | none => .error (.missingStack id)

/-- Pushes an item, counts it in `pushed` and notes it. -/
def push (state : State) (id : StackId) (value : Value) : Except TypeFault State := do
  let items ← state.items id
  return ({ state.setStack id (value :: items) with pushed := state.pushed + 1 }).note (.pushed id)

/-- The `items` of a stack, for an operation that can also revert. -/
def itemsOrFault (state : State) (id : StackId) : Except Fault (List Value) :=
  (state.items id).mapError .typeError

/-- Takes the top item off a stack, or gives up with `.revert` if there is none. -/
def pop (state : State) (id : StackId) : Except Fault (Value × State) := do
  match ← state.itemsOrFault id with
  | [] => .error .revert
  | value :: rest => return (value, (state.setStack id rest).note (.popped id value))

/-- The largest depth a machine word can hold, `2^64 - 1`. -/
def maxDepth : Nat := 18446744073709551615

/-- The failure to find an item under `depth` others. Finding an item counts it and those above it
in a machine word; the largest depth leaves no room for the count, which starts again at zero and
so points past the top. -/
def tooDeep (depth : Nat) : Fault := if depth = maxDepth then .outOfBounds else .revert

/-- The item under `depth` others. -/
def peek (state : State) (id : StackId) (depth : Nat) : Except Fault Value := do
  match (← state.itemsOrFault id)[depth]? with
  | some value => return value
  | none => .error (tooDeep depth)

/-- Throws the items of a stack away and notes them as `.flushed`. -/
def flush (state : State) (id : StackId) : Except Fault State := do
  let items ← state.itemsOrFault id
  return (state.setStack id []).note (.flushed id items)

/-- Takes the item under `depth` others out of a stack. -/
def yank (state : State) (id : StackId) (depth : Nat) : Except Fault (Value × State) := do
  let items ← state.itemsOrFault id
  match items[depth]? with
  | some value =>
    return (value, (state.setStack id (items.eraseIdx depth)).note (.removed id depth value))
  | none => .error (tooDeep depth)

/-- Inserts an item under `depth` others, or at the bottom if there are fewer. -/
def shove (state : State) (id : StackId) (depth : Nat) (value : Value) : Except Fault State := do
  let items ← state.itemsOrFault id
  let place := min depth items.length
  return ({ state.setStack id (items.insertIdx place value) with
    pushed := state.pushed + 1 }).note (.inserted id place)

/-- Prints a text, unless the printed text would then have more than `cap` characters. -/
def print (state : State) (text : String) (cap : Nat) : Except Fault State :=
  if cap < state.stdoutLength + text.length then .error .revert
  else
    let noted := state.note (.printed state.stdout.utf8ByteSize)
    .ok { noted with
      stdout := noted.stdout ++ text, stdoutLength := noted.stdoutLength + text.length }

end State

end PushMachine
