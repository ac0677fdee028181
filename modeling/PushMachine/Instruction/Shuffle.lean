import PushMachine.Instruction
import PushMachine.Registry

/-! # Stack shuffling

The instructions that every stack has, whatever its items are: copying, dropping, reordering and
counting. Those that take a position read it from the integer stack before they look at their own,
and a position outside the stack counts as the nearest one inside. -/

namespace PushMachine.Instruction

open Script

/-- Drops the top item. -/
def dropTop (id : StackId) : Script Unit := do
  let _ ← pop id

/-- Copies the top item. -/
def copyTop (id : StackId) : Script Unit := do
  push id (← peek id 0)

/-- Replaces the top item by as many copies as an integer says, at most `collectionSizeCap`. -/
def copyTimes (id : StackId) (caps : SizeCaps) : Script Unit := do
  let n ← popInt
  let value ← pop id
  pushAll id (List.replicate (nearestPlace n caps.collectionSizeCap) value)

/-- Exchanges the two top items. -/
def swapTop (id : StackId) : Script Unit := do
  let a ← pop id
  let b ← pop id
  push id a
  push id b

/-- Brings the third item to the top. -/
def rotateTop (id : StackId) : Script Unit := do
  let a ← pop id
  let b ← pop id
  let c ← pop id
  push id b
  push id a
  push id c

/-- Compares the two top items with `==`. -/
def compareTop (id : StackId) : Script Unit := do
  let a ← pop id
  let b ← pop id
  pushBool (a == b)

/-- Counts the items. -/
def countItems (id : StackId) : Script Unit := do
  pushNat (← depth id)

/-- The position of the bottom item; `revert` if there is none. -/
def lastDepth (id : StackId) : Script Nat := do
  match ← depth id with
  | 0 => revert
  | n + 1 => return n

/-- Brings the item at a position to the top. The position is the one inside the stack that is
`nearestPlace` to an integer. -/
def yankItem (id : StackId) : Script Unit := do
  let n ← popInt
  let last ← lastDepth id
  push id (← yank id (nearestPlace n last))

/-- Copies the item at a position, found as in `yankItem`, to the top. -/
def yankCopy (id : StackId) : Script Unit := do
  let n ← popInt
  let last ← lastDepth id
  push id (← peek id (nearestPlace n last))

/-- Moves the top item to the position that is `nearestPlace` to an integer. -/
def shoveItem (id : StackId) : Script Unit := do
  let n ← popInt
  let value ← pop id
  shove id (nearestPlace n (← depth id)) value

/-- Copies the top item to a position, found as in `shoveItem`. -/
def shoveCopy (id : StackId) : Script Unit := do
  let n ← popInt
  let value ← peek id 0
  shove id (nearestPlace n (← depth id)) value

/-- Whether the stack has no items. -/
def testEmpty (id : StackId) : Script Unit := do
  pushBool ((← depth id) = 0)

/-- Whether the collection on top has no items, by `Value.itemCount?`. -/
def testEmptyItem (id : StackId) : Script Unit := do
  let value ← pop id
  let length ← ofOption value.itemCount?
  pushBool (length = 0)

/-- The instruction `type ++ "_" ++ verb` of a stack. On `.exec` it opens groups in a genome. -/
def ofVerb (id : StackId) (type verb : String) (inputs outputs : List StackId) (groups : UInt8)
    (body : SizeCaps → Script Unit) : Instruction :=
  { name := type ++ "_" ++ verb, inputs := inputs, outputs := outputs
    groups := if id = .exec then groups else 0, body := body }

/-- **The shuffling instructions** of a stack and its type. Only a type that `isCollection` has the
last one, `"empty"`. -/
def shuffling (id : StackId) (type : StackType) : List Instruction :=
  let verb := ofVerb id type.name
  [verb "pop" [id] [] 1 fun _ => dropTop id,
   verb "dup" [id] [id] 1 fun _ => copyTop id,
   verb "dup_times" [.int, id] [id] 1 fun caps => copyTimes id caps,
   verb "swap" [id, id] [id] 2 fun _ => swapTop id,
   verb "rot" [id, id, id] [id] 3 fun _ => rotateTop id,
   verb "flush" [] [] 0 fun _ => flush id,
   verb "eq" [id, id] [.bool] 0 fun _ => compareTop id,
   verb "stack_depth" [] [.int] 0 fun _ => countItems id,
   verb "yank" [.int, id] [id] 0 fun _ => yankItem id,
   verb "yank_dup" [.int, id] [id] 0 fun _ => yankCopy id,
   verb "shove" [.int, id] [id] 1 fun _ => shoveItem id,
   verb "shove_dup" [.int, id] [id] 1 fun _ => shoveCopy id,
   verb "is_empty" [] [.bool] 0 fun _ => testEmpty id] ++
  if type.isCollection then [verb "empty" [id] [.bool] 0 fun _ => testEmptyItem id] else []

end PushMachine.Instruction
