import PushMachine.Term

/-! # Code as a tree

Points number the parts of a block in pre-order: point 0 is the block, point 1 its first part, and
the parts of a nested block come before what follows it. `Expr.size` counts points,
`Block.atPoint?` finds the part at a point, and `Block.insertAtPoint` puts an atom at a point and
shifts the later points. -/

namespace PushMachine

mutual

/-- Number of points of an expression: `.block body` counts itself and its parts. -/
def Expr.size : Expr → Nat
  | .block body => 1 + Block.partsSize body
  | _ => 1

/-- Number of points of the parts of a block, the sum of their `Expr.size`. -/
def Block.partsSize : List Expr → Nat
  | [] => 0
  | e :: rest => Expr.size e + Block.partsSize rest

end

mutual

/-- Nesting depth of an expression; a `.block` without nested blocks has depth 1. -/
def Expr.depth : Expr → Nat
  | .block body => 1 + Block.partsDepth body
  | _ => 0

/-- The largest `Expr.depth` among the parts of a block. -/
def Block.partsDepth : List Expr → Nat
  | [] => 0
  | e :: rest => max (Expr.depth e) (Block.partsDepth rest)

end

namespace Block

@[simp] theorem partsSize_nil : partsSize [] = 0 := rfl

@[simp] theorem partsSize_cons (e : Expr) (rest : Block) :
    partsSize (e :: rest) = e.size + partsSize rest := rfl

/-- A part has no more points than all parts together. -/
theorem size_le_partsSize {e : Expr} {body : Block} (h : e ∈ body) : e.size ≤ partsSize body := by
  induction h with
  | head rest => exact Nat.le_add_right _ _
  | tail other _ ih => exact Nat.le_add_left_of_le ih

/-- Number of points of a block: itself and `partsSize body`. -/
def size (body : Block) : Nat := 1 + partsSize body

/-- Nesting depth of a block: one more than `partsDepth body`. -/
def depth (body : Block) : Nat := 1 + partsDepth body

/-- The block of the expressions among some atoms; each `.closer` is dropped. -/
def ofAtoms (atoms : List Atom) : Block :=
  atoms.filterMap fun
    | .closer => none
    | .expr e => some e

end Block

/-! ## Finding a point -/

mutual

/-- The expression at a point of an expression, which is point `0` of itself. -/
def Expr.atPoint? : Expr → Nat → Option Expr
  | .block body, point =>
    if point = 0 then some (.block body) else Block.partAt? body (point - 1)
  | e, point => if point = 0 then some e else none

/-- The expression at a point, counted from `0` at the first of some parts. -/
def Block.partAt? : List Expr → Nat → Option Expr
  | [], _ => none
  | e :: rest, point =>
    if point < e.size then Expr.atPoint? e point else Block.partAt? rest (point - e.size)

end

/-- **The code at a point** of a block, or `none` past its end. Point `0` is the block itself. -/
def Block.atPoint? (body : Block) (point : Nat) : Option Expr := Expr.atPoint? (.block body) point

/-! ## Inserting at a point -/

/-- An atom in front of some parts; `.closer` leaves no trace. -/
def Block.consAtom (atom : Atom) (parts : Block) : Block :=
  match atom with
  | .closer => parts
  | .expr e => e :: parts

mutual

/-- An expression with an atom inserted at a point inside it. -/
def Expr.insertInside (atom : Atom) : Expr → Nat → Expr
  | .block body, point => .block (Block.insertBefore atom body (point - 1))
  | e, _ => e

/-- Inserts an atom so that it has the given point among some parts, or behind them if they have
fewer points. A point inside a part that is a block lies in that block. -/
def Block.insertBefore (atom : Atom) : List Expr → Nat → Block
  | [], _ => Block.consAtom atom []
  | e :: rest, point =>
    if point = 0 then Block.consAtom atom (e :: rest)
    else if point < e.size then Expr.insertInside atom e point :: rest
    else e :: Block.insertBefore atom rest (point - e.size)

end

/-- **Inserts an atom at a point** of a block by `insertBefore`. Point `0` inserts at the front like
point `1`, and points past the end append. -/
def Block.insertAtPoint (body : Block) (atom : Atom) (point : Nat) : Block :=
  Block.insertBefore atom body (max point 1 - 1)

/-! ## Atoms -/

namespace Atom

/-- Number of points of an atom: `Expr.size` of an expression, and one for a closer. -/
def size : Atom → Nat
  | .closer => 1
  | .expr e => e.size

/-- Nesting depth of an atom. -/
def depth : Atom → Nat
  | .closer => 0
  | .expr e => e.depth

/-- The expressions of `.block body`, or the atom itself as the only one. -/
def toBlock : Atom → Block
  | .closer => []
  | .expr (.block body) => body
  | .expr e => [e]

/-- Whether an atom is a block. -/
def isBlock : Atom → Bool
  | .expr (.block _) => true
  | _ => false

end Atom

/-- The block `Block.ofAtoms atoms`, as an atom. -/
def Atom.block (atoms : List Atom) : Atom := .expr (.block (Block.ofAtoms atoms))

/-- Number of items of a collection: characters of a string, points of code, and `none` for a value
that is not a collection. -/
def Value.itemCount? : Value → Option Nat
  | .str s => some s.length
  | .bools items => some items.length
  | .ints items => some items.length
  | .floats items => some items.length
  | .chars items => some items.length
  | .strs items => some items.length
  | .code atom => some atom.size
  | _ => none

end PushMachine
