import PushMachine.Instruction

/-! # Code editing

Instructions that take code apart and put it together. Where a block is expected, any other atom
counts as a block of its own, and code that would have too many points is not built. -/

namespace PushMachine.Instruction

open Script

/-- Pushes code, or gives up if it has more than `maxPoints` points. -/
def pushCodeWithin (caps : SizeCaps) (id : StackId) (atom : Atom) : Script Unit :=
  if caps.maxPoints < atom.size then revert else pushAtom id atom

/-- Pushes a block onto the code stack, or gives up as in `pushCodeWithin`. -/
def pushBlockWithin (caps : SizeCaps) (body : Block) : Script Unit :=
  pushCodeWithin caps .code (.expr (.block body))

/-- Quotes a value as a `.literal` on the code stack. -/
def quoteValue (id : StackId) (caps : SizeCaps) : Script Unit := do
  let value ← pop id
  pushCodeWithin caps .code (.expr (.literal value id))

/-- Moves the next pending atom from `.exec` to `.code`. -/
def quotePending (caps : SizeCaps) : Script Unit := do
  let atom ← popAtom .exec
  pushCodeWithin caps .code atom

/-- The top block followed by the second, each as `Atom.toBlock` has it. -/
def appendBlocks (caps : SizeCaps) : Script Unit := do
  let top ← popAtom .code
  let second ← popAtom .code
  pushBlockWithin caps (top.toBlock ++ second.toBlock)

/-- The second block followed by the top one; `appendBlocks` has them the other way. -/
def combineBlocks (caps : SizeCaps) : Script Unit := do
  let top ← popAtom .code
  let second ← popAtom .code
  pushBlockWithin caps (second.toBlock ++ top.toBlock)

/-- The top block with the second atom in front (`Block.consAtom`). -/
def consBlock (caps : SizeCaps) : Script Unit := do
  let top ← popAtom .code
  let second ← popAtom .code
  pushBlockWithin caps (Block.consAtom second top.toBlock)

/-- The block of the second and the top atom (`Block.ofAtoms`). -/
def listAtoms (caps : SizeCaps) : Script Unit := do
  let top ← popAtom .code
  let second ← popAtom .code
  pushBlockWithin caps (Block.ofAtoms [second, top])

/-- The block of the top atom. -/
def wrapAtom (caps : SizeCaps) : Script Unit := do
  let top ← popAtom .code
  pushBlockWithin caps (Block.ofAtoms [top])

/-- The first part of a block; an empty block and any other atom stay as they are. -/
def firstPart : Atom → Atom
  | .expr (.block (e :: _)) => .expr e
  | atom => atom

/-- A block without its first part; any other atom has no parts. -/
def otherParts : Atom → Block
  | .expr (.block body) => body.drop 1
  | _ => []

/-- The first part of a block (`firstPart`). -/
def takeFirst : Script Unit := do
  let atom ← popAtom .code
  pushAtom .code (firstPart atom)

/-- The other parts of a block (`otherParts`). -/
def takeOthers : Script Unit := do
  let atom ← popAtom .code
  pushAtom .code (.expr (.block (otherParts atom)))

/-- The first part of a block that has one; other atoms make it `revert`. -/
def requireFirst : Script Unit := do
  match ← popAtom .code with
  | .expr (.block (e :: _)) => pushAtom .code (.expr e)
  | _ => revert

/-- The other parts of a block that has a first one; other atoms make it `revert`. -/
def requireOthers : Script Unit := do
  match ← popAtom .code with
  | .expr (.block (_ :: rest)) => pushAtom .code (.expr (.block rest))
  | _ => revert

/-- The part of a block at a position, running around (`cyclicPlace?`). -/
def nthPart : Script Unit := do
  let n ← popInt
  let body := (← popAtom .code).toBlock
  let place ← ofOption (cyclicPlace? n body.length)
  pushAtom .code (.expr (← ofOption body[place]?))

/-- Number of parts of an atom: one for all but a `.block`. -/
def partCount : Atom → Nat
  | .expr (.block body) => body.length
  | _ => 1

/-- Replaces an atom by the number `f` of it. -/
def measureAtom (f : Atom → Nat) : Script Unit := do
  let atom ← popAtom .code
  pushNat (f atom)

/-- Pushes the code at a point of a block, running around (`cyclicPoint`). Any other atom has only
itself. -/
def pushPoint (n : Int64) (atom : Atom) : Script Unit :=
  match atom with
  | .expr (.block body) => do
    pushAtom .code (.expr (← ofOption (Block.atPoint? body (cyclicPoint n atom.size))))
  | atom => pushAtom .code atom

/-- The code at a point (`pushPoint`). -/
def extractPoint : Script Unit := do
  let n ← popInt
  pushPoint n (← popAtom .code)

/-- Inserts an atom into a block at a point, running around (`Block.insertAtPoint`). -/
def insertPoint (caps : SizeCaps) : Script Unit := do
  let n ← popInt
  let target := (← popAtom .code).toBlock
  let item ← popAtom .code
  pushBlockWithin caps (target.insertAtPoint item (cyclicPoint n (Block.size target)))

/-- Whether an atom is a part of a block, by `==`. -/
def testPart : Script Unit := do
  let body := (← popAtom .code).toBlock
  let item ← popAtom .code
  pushBool (body.any fun e => Atom.expr e == item)

/-- The first position of an atom in a block, or `-1`. -/
def findPart : Script Unit := do
  let body := (← popAtom .code).toBlock
  let item ← popAtom .code
  match body.findIdx? fun e => Atom.expr e == item with
  | some place => pushNat place
  | none => pushInt (-1)

/-- A block with its parts in reverse order; any other atom stays as it is. -/
def reverseParts : Atom → Atom
  | .expr (.block body) => .expr (.block body.reverse)
  | atom => atom

/-- Reverses a block (`reverseParts`). -/
def reverseBlock : Script Unit := do
  let atom ← popAtom .code
  pushAtom .code (reverseParts atom)

/-- Replaces an atom by whether it satisfies `f`. -/
def testAtom (f : Atom → Bool) : Script Unit := do
  let atom ← popAtom .code
  pushBool (f atom)

/-- The instruction `"code_from_" ++ type` that quotes the values of a stack. -/
def quoting (type : String) (id : StackId) : Instruction :=
  { name := "code_from_" ++ type, inputs := [id], outputs := [.code], body := quoteValue id }

/-- **The instructions that edit code**. -/
def codeEditing : List Instruction :=
  [{ name := "noop", inputs := [], outputs := [], body := fun _ => return () },
   { name := "noop_open_paren", inputs := [], outputs := [], groups := 1
     body := fun _ => return () },
   quoting "int" .int,
   quoting "float" .float,
   quoting "bool" .bool,
   quoting "char" .char,
   quoting "str" .str,
   { name := "code_from_exec", inputs := [.exec], outputs := [.code], groups := 1
     body := quotePending },
   { name := "code_append", inputs := [.code, .code], outputs := [.code], body := appendBlocks },
   { name := "code_combine", inputs := [.code, .code], outputs := [.code], body := combineBlocks },
   { name := "code_cons", inputs := [.code, .code], outputs := [.code], body := consBlock },
   { name := "code_list", inputs := [.code, .code], outputs := [.code], body := listAtoms },
   { name := "code_wrap", inputs := [.code], outputs := [.code], body := wrapAtom },
   { name := "code_car", inputs := [.code], outputs := [.code], body := fun _ => takeFirst },
   { name := "code_cdr", inputs := [.code], outputs := [.code], body := fun _ => takeOthers },
   { name := "code_first", inputs := [.code], outputs := [.code], body := fun _ => requireFirst },
   { name := "code_rest", inputs := [.code], outputs := [.code], body := fun _ => requireOthers },
   { name := "code_nth", inputs := [.code, .int], outputs := [.code], body := fun _ => nthPart },
   { name := "code_length", inputs := [.code], outputs := [.int]
     body := fun _ => measureAtom partCount },
   { name := "code_size", inputs := [.code], outputs := [.int]
     body := fun _ => measureAtom Atom.size },
   { name := "code_depth", inputs := [.code], outputs := [.int]
     body := fun _ => measureAtom Atom.depth },
   { name := "code_extract", inputs := [.code, .int], outputs := [.code]
     body := fun _ => extractPoint },
   { name := "code_insert", inputs := [.code, .code, .int], outputs := [.code]
     body := insertPoint },
   { name := "code_member", inputs := [.code, .code], outputs := [.bool]
     body := fun _ => testPart },
   { name := "code_first_position", inputs := [.code, .code], outputs := [.int]
     body := fun _ => findPart },
   { name := "code_reverse", inputs := [.code], outputs := [.code], body := fun _ => reverseBlock },
   { name := "code_is_code_block", inputs := [.code], outputs := [.bool]
     body := fun _ => testAtom Atom.isBlock },
   { name := "code_is_singular", inputs := [.code], outputs := [.bool]
     body := fun _ => testAtom fun atom => !atom.isBlock }]

end PushMachine.Instruction
