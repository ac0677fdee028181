import PushMachine.Instruction

/-! # Vectors

The instructions that every type of items has for its vectors. An instruction that reads both a
position and an item takes the position first. Two items are the same when `==` says so, so a
NaN is found in no vector. -/

namespace PushMachine.Instruction

open Script

variable {α : Type} [BEq α] [Item α]

/-- Pushes a vector, or gives up if it is longer than `collectionSizeCap`. -/
def pushVectorWithin (caps : SizeCaps) (items : List α) : Script Unit :=
  if caps.collectionSizeCap < items.length then revert else pushVector items

/-- The part of a list between the positions `a` and `b`, in either order. -/
def sliceBetween (a b : Nat) (items : List α) : List α :=
  (items.take (max a b)).drop (min a b)

/-- Replaces the first item equal to `old`. -/
def replaceFirst (old new : α) : List α → List α
  | [] => []
  | item :: rest => if item == old then new :: rest else item :: replaceFirst old new rest

variable (α)

/-- Joins two vectors. -/
def concatVectors (caps : SizeCaps) : Script Unit := do
  let b : List α ← popVector
  let a : List α ← popVector
  pushVectorWithin caps (a ++ b)

/-- Appends an item. -/
def appendItem (caps : SizeCaps) : Script Unit := do
  let x : α ← popItem
  let items : List α ← popVector
  pushVectorWithin caps (items ++ [x])

/-- Keeps as many items as an integer says, by `nearestPlace`. -/
def takeItems : Script Unit := do
  let n ← popInt
  let items : List α ← popVector
  pushVector (items.take (nearestPlace n items.length))

/-- The part of a vector between two positions (`sliceBetween`). -/
def sliceVector : Script Unit := do
  let stop ← popInt
  let start ← popInt
  let items : List α ← popVector
  pushVector (sliceBetween (nearestPlace start items.length) (nearestPlace stop items.length) items)

/-- The item of a vector that `f` picks: the first or the last. -/
def pickItem (f : List α → Option α) : Script Unit := do
  let items : List α ← popVector
  pushItem (← ofOption (f items))

/-- The item at a position, running around (`cyclicPlace?`). -/
def nthItem : Script Unit := do
  let n ← popInt
  let items : List α ← popVector
  let place ← ofOption (cyclicPlace? n items.length)
  pushItem (← ofOption items[place]?)

/-- Replaces a vector by what `f` makes of it. -/
def changeVector (f : List α → List α) : Script Unit := do
  let items : List α ← popVector
  pushVector (f items)

/-- The number of items. -/
def vectorLength : Script Unit := do
  let items : List α ← popVector
  pushNat items.length

/-- Pushes every item, the first one last. -/
def spreadItems : Script Unit := do
  let items : List α ← popVector
  pushAll (Item.stack α) (items.reverse.map Item.toValue)

/-- Whether an item occurs, by `==`. -/
def testItem : Script Unit := do
  let x : α ← popItem
  let items : List α ← popVector
  pushBool (items.any (· == x))

/-- The first position of an item, or `-1`. -/
def findItem : Script Unit := do
  let x : α ← popItem
  let items : List α ← popVector
  match items.findIdx? (· == x) with
  | some place => pushNat place
  | none => pushInt (-1)

/-- How often an item occurs, by `==`. -/
def countItem : Script Unit := do
  let x : α ← popItem
  let items : List α ← popVector
  pushNat (items.countP (· == x))

/-- Replaces the item at a position, running around (`cyclicPlace?`). -/
def setItem : Script Unit := do
  let n ← popInt
  let x : α ← popItem
  let items : List α ← popVector
  let place ← ofOption (cyclicPlace? n items.length)
  pushVector (items.set place x)

/-- Replaces an item by another wherever it occurs. -/
def replaceItems : Script Unit := do
  let new : α ← popItem
  let old : α ← popItem
  let items : List α ← popVector
  pushVector (items.map fun item => if item == old then new else item)

/-- Replaces an item by another where it occurs first (`replaceFirst`). -/
def replaceFirstItem : Script Unit := do
  let new : α ← popItem
  let old : α ← popItem
  let items : List α ← popVector
  pushVector (replaceFirst old new items)

/-- Removes an item wherever it occurs. -/
def removeItems : Script Unit := do
  let x : α ← popItem
  let items : List α ← popVector
  pushVector (items.filter (· != x))

/-- The name of the instruction `iterateVector`, by which a turn refers to the next one. -/
def iterateName : String := Item.vectorsName α ++ "_iterate"

/-- Runs the next pending atom for every item of a vector: the first item is pushed, and a block
that goes on with the others, through `.deferred (iterateName α)`, waits behind the body. -/
def iterateVector : Script Unit := do
  let items : List α ← popVector
  let body ← popAtom .exec
  match items with
  | [] => return ()
  | first :: rest =>
    if !rest.isEmpty then
      pushAtom .exec (Atom.block
        [.expr (.literal (Item.toVector rest) (Item.vector α)),
         .expr (.deferred (iterateName α)), body])
    pushAtom .exec body
    pushItem first

/-- The instruction `Item.vectorsName α ++ "_" ++ verb` on the vectors of a type of items. -/
def ofVectorVerb (verb : String) (inputs outputs : List StackId) (body : SizeCaps → Script Unit) :
    Instruction :=
  { name := Item.vectorsName α ++ "_" ++ verb, inputs := inputs, outputs := outputs, body := body }

/-- **The instructions on the vectors** of a type of items. -/
def vectorsOf : List Instruction :=
  let verb := ofVectorVerb α
  let item := Item.stack α
  let vector := Item.vector α
  [verb "concat" [vector, vector] [vector] (concatVectors α),
   verb "conj" [vector, item] [vector] (appendItem α),
   verb "take" [vector, .int] [vector] fun _ => takeItems α,
   verb "subvec" [vector, .int, .int] [vector] fun _ => sliceVector α,
   verb "first" [vector] [item] fun _ => pickItem α List.head?,
   verb "last" [vector] [item] fun _ => pickItem α List.getLast?,
   verb "nth" [vector, .int] [item] fun _ => nthItem α,
   verb "rest" [vector] [vector] fun _ => changeVector α (List.drop 1),
   verb "but_last" [vector] [vector] fun _ => changeVector α List.dropLast,
   verb "reverse" [vector] [vector] fun _ => changeVector α List.reverse,
   verb "length" [vector] [.int] fun _ => vectorLength α,
   verb "push_all" [vector] [item] fun _ => spreadItems α,
   verb "empty_vector" [] [vector] fun _ => pushVector ([] : List α),
   verb "contains" [vector, item] [.bool] fun _ => testItem α,
   verb "index_of" [vector, item] [.int] fun _ => findItem α,
   verb "occurrences_of" [vector, item] [.int] fun _ => countItem α,
   verb "set_nth" [vector, item, .int] [vector] fun _ => setItem α,
   verb "replace" [vector, item, item] [vector] fun _ => replaceItems α,
   verb "replace_first" [vector, item, item] [vector] fun _ => replaceFirstItem α,
   verb "remove" [vector, item] [vector] fun _ => removeItems α,
   { name := iterateName α, inputs := [vector, .exec], outputs := [item, .exec], groups := 1
     body := fun _ => iterateVector α }]

/-- The instructions `vectorsOf` for all five types of items. -/
def vectors : List Instruction :=
  vectorsOf Bool ++ vectorsOf Int64 ++ vectorsOf Float ++ vectorsOf Char ++ vectorsOf String

end PushMachine.Instruction
