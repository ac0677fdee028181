import PushMachine.Code
import PushMachine.Item
import PushMachine.Number
import PushMachine.State

/-! # Scripts

The body of an instruction is a script: a tree of operations on the state, in which each operation's
result decides how the script goes on, until it is done or fails. A script that fails keeps the
changes made before the failure; it is the transaction around it that takes them back. -/

namespace PushMachine

/-- An operation on the state. -/
inductive Op where
  /-- Push an item. -/
  | push (id : StackId) (value : Value)
  /-- Take the top item. -/
  | pop (id : StackId)
  /-- Look at the item under `depth` others. -/
  | peek (id : StackId) (depth : Nat)
  /-- Count the items. -/
  | depth (id : StackId)
  /-- Throw all items away. -/
  | flush (id : StackId)
  /-- Take out the item under `depth` others. -/
  | yank (id : StackId) (depth : Nat)
  /-- Insert an item under `depth` others. -/
  | shove (id : StackId) (depth : Nat) (value : Value)
  /-- Print a text, if the printed text has at most `cap` characters then. -/
  | print (text : String) (cap : Nat)

/-- The type of an operation's result. -/
def Op.Result : Op → Type
  | .push _ _ => Unit
  | .pop _ => Value
  | .peek _ _ => Value
  | .depth _ => Nat
  | .flush _ => Unit
  | .yank _ _ => Value
  | .shove _ _ _ => Unit
  | .print _ _ => Unit

/-- Carries out one operation by the function of `State` of the same name. A failing operation
changes nothing. -/
def State.apply (state : State) : (op : Op) → Except Fault (op.Result × State)
  | .push id value =>
    match state.push id value with
    | .ok next => .ok ((), next)
    | .error fault => .error (.typeError fault)
  | .pop id => state.pop id
  | .peek id depth => (state.peek id depth).map fun value => (value, state)
  | .depth id => .ok (state.depth id, state)
  | .flush id => (state.flush id).map fun next => ((), next)
  | .yank id depth => state.yank id depth
  | .shove id depth value => (state.shove id depth value).map fun next => ((), next)
  | .print text cap => (state.print text cap).map fun next => ((), next)

/-- **A script** of operations with a result. -/
inductive Script (α : Type) : Type where
  /-- The script is done. -/
  | done (result : α)
  /-- The script fails. -/
  | fail (fault : Fault)
  /-- Carry out `op` and go on by its result. -/
  | act (op : Op) (next : op.Result → Script α)

namespace Script

variable {α β γ : Type}

/-- Goes on with a second script where the first is done. -/
def bind : Script α → (α → Script β) → Script β
  | .done result, rest => rest result
  | .fail fault, _ => .fail fault
  | .act op next, rest => .act op fun result => (next result).bind rest

instance : Monad Script where
  pure := .done
  bind := bind

@[simp] theorem done_bind (result : α) (rest : α → Script β) :
    (Script.done result >>= rest) = rest result := rfl

@[simp] theorem fail_bind (fault : Fault) (rest : α → Script β) :
    ((Script.fail fault : Script α) >>= rest) = .fail fault := rfl

@[simp] theorem act_bind (op : Op) (next : op.Result → Script α) (rest : α → Script β) :
    (Script.act op next >>= rest) = .act op fun result => next result >>= rest := rfl

/-- Carries a script out with `State.apply`. The state comes back also when the script fails. -/
def run : Script α → State → Except Fault α × State
  | .done result, state => (.ok result, state)
  | .fail fault, state => (.error fault, state)
  | .act op next, state =>
    match state.apply op with
    | .ok (result, after) => (next result).run after
    | .error fault => (.error fault, state)

/-! ## Single operations -/

/-- Gives up without effect: the failure `Fault.revert`. -/
def revert : Script α := .fail .revert

/-- The result, or `revert` if there is none. -/
def ofOption : Option α → Script α
  | some result => .done result
  | none => revert

/-- Pushes an item. -/
def push (id : StackId) (value : Value) : Script Unit := .act (.push id value) .done

/-- Takes the top item. -/
def pop (id : StackId) : Script Value := .act (.pop id) .done

/-- Looks at the item under `depth` others. -/
def peek (id : StackId) (depth : Nat) : Script Value := .act (.peek id depth) .done

/-- Counts the items of a stack. -/
def depth (id : StackId) : Script Nat := .act (.depth id) .done

/-- Throws all items of a stack away. -/
def flush (id : StackId) : Script Unit := .act (.flush id) .done

/-- Takes out the item under `depth` others. -/
def yank (id : StackId) (depth : Nat) : Script Value := .act (.yank id depth) .done

/-- Inserts an item under `depth` others. -/
def shove (id : StackId) (depth : Nat) (value : Value) : Script Unit :=
  .act (.shove id depth value) .done

/-- Prints a text, if the printed text has at most `cap` characters then. -/
def print (text : String) (cap : Nat) : Script Unit := .act (.print text cap) .done

/-- Pushes items one after another, so that the last of the list ends up on top of stack `id`. -/
def pushAll (id : StackId) : List Value → Script Unit
  | [] => .done ()
  | value :: rest => do
    push id value
    pushAll id rest

/-! ## Typed operations -/

/-- Takes an atom off a stack for code, or fails with `.notCode`. -/
def popAtom (id : StackId) : Script Atom := do
  match ← pop id with
  | .code atom => return atom
  | other => .fail (.typeError (.notCode id other.kind))

/-- Looks at the atom on top of a stack for code, or fails with `.notCode`. -/
def peekAtom (id : StackId) : Script Atom := do
  match ← peek id 0 with
  | .code atom => return atom
  | other => .fail (.typeError (.notCode id other.kind))

/-- Pushes an atom onto a stack for code. -/
def pushAtom (id : StackId) (atom : Atom) : Script Unit := push id (.code atom)

/-- Takes an item of a vector off `Item.stack α`, or fails with `.elementMismatch`. -/
def popItem [BEq α] [Item α] : Script α := do
  match Item.ofValue? (← pop (Item.stack α)) with
  | some x => return x
  | none => .fail (.typeError .elementMismatch)

/-- Pushes an item of a vector onto `Item.stack α`. -/
def pushItem [BEq α] [Item α] (x : α) : Script Unit :=
  push (Item.stack α) (Item.toValue x)

/-- Takes a vector off `Item.vector α`, or fails with `.vectorMismatch`. -/
def popVector [BEq α] [Item α] : Script (List α) := do
  match Item.ofVector? (← pop (Item.vector α)) with
  | some items => return items
  | none => .fail (.typeError .vectorMismatch)

/-- Pushes a vector onto `Item.vector α`. -/
def pushVector [BEq α] [Item α] (items : List α) : Script Unit :=
  push (Item.vector α) (Item.toVector items)

/-- Takes a truth value. -/
def popBool : Script Bool := popItem

/-- Takes an integer. -/
def popInt : Script Int64 := popItem

/-- Takes a double. -/
def popFloat : Script Float := popItem

/-- Takes a character. -/
def popChar : Script Char := popItem

/-- Takes a string. -/
def popStr : Script String := popItem

/-- Pushes a truth value. -/
def pushBool (b : Bool) : Script Unit := push .bool (.bool b)

/-- Pushes an integer. -/
def pushInt (n : Int64) : Script Unit := push .int (.int n)

/-- Pushes a count as an integer, or gives up if `countToInt?` has none. -/
def pushNat (n : Nat) : Script Unit := do
  pushInt (← ofOption (countToInt? n))

end Script

end PushMachine
