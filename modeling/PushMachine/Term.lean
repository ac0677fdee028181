import PushMachine.Json.Basic
import PushMachine.StackId

/-! # Values and code

The terms of the machine. Values lie on stacks; code is made of expressions, some of which hold
values; and code is itself a value. A closer ends a group of a linear genome. It may lie on a stack
as an atom of its own, but a block has expressions only, so no block ever contains a closer. -/

namespace PushMachine

mutual

/-- A value that can lie on a stack. -/
inductive Value where
  /-- A truth value. -/
  | bool (b : Bool)
  /-- An integer. -/
  | int (n : Int64)
  /-- A double. -/
  | float (x : Float)
  /-- A character. -/
  | char (c : Char)
  /-- A string. -/
  | str (s : String)
  /-- A vector of truth values. -/
  | bools (items : List Bool)
  /-- A vector of integers. -/
  | ints (items : List Int64)
  /-- A vector of doubles. -/
  | floats (items : List Float)
  /-- A vector of characters. -/
  | chars (items : List Char)
  /-- A vector of strings. -/
  | strs (items : List String)
  /-- Code as data, whether an expression or `Atom.closer`. -/
  | code (atom : Atom)
  /-- A value of the user-defined type of the given name. -/
  | custom (type : String) (data : Json)

/-- An atom: an expression `Atom.expr e`, or `Atom.closer`. -/
inductive Atom where
  /-- The end of a group of a genome. -/
  | closer
  /-- An expression. -/
  | expr (e : Expr)

/-- A piece of code. -/
inductive Expr where
  /-- A value that goes to the stack `on`. -/
  | literal (value : Value) (on : StackId)
  /-- The program input of the given index. -/
  | input (index : Nat)
  /-- An instruction, with the number of `groups` it opens in a genome. -/
  | instr (name : String) (groups : UInt8)
  /-- A reference to an instruction that instructions leave behind, such as the next turn of a
  loop. -/
  | deferred (name : String)
  /-- A block of code. -/
  | block (body : List Expr)

end

/-- A sequence of expressions, the body of an `Expr.block`. -/
abbrev Block := List Expr

instance : Inhabited Value := ⟨.bool false⟩

instance : Coe Expr Atom := ⟨.expr⟩

mutual

/-- Equality of values. Doubles compare by `==`, so a NaN differs from itself. -/
def Value.beq : Value → Value → Bool
  | .bool a, .bool b => a == b
  | .int a, .int b => a == b
  | .float a, .float b => a == b
  | .char a, .char b => a == b
  | .str a, .str b => a == b
  | .bools a, .bools b => a == b
  | .ints a, .ints b => a == b
  | .floats a, .floats b => a == b
  | .chars a, .chars b => a == b
  | .strs a, .strs b => a == b
  | .code a, .code b => Atom.beq a b
  | .custom s a, .custom t b => s == t && a == b
  | _, _ => false
termination_by structural v => v

/-- Equality of atoms; `.closer` equals itself only. -/
def Atom.beq : Atom → Atom → Bool
  | .closer, .closer => true
  | .expr a, .expr b => Expr.beq a b
  | _, _ => false
termination_by structural a => a

/-- Equality of expressions. -/
def Expr.beq : Expr → Expr → Bool
  | .literal v s, .literal w t => Value.beq v w && s == t
  | .input i, .input j => i == j
  | .instr m k, .instr n l => m == n && k == l
  | .deferred m, .deferred n => m == n
  | .block a, .block b => Block.beq a b
  | _, _ => false
termination_by structural e => e

/-- Equality of blocks, expression by expression with `Expr.beq`. -/
def Block.beq : List Expr → List Expr → Bool
  | [], [] => true
  | a :: as, b :: bs => Expr.beq a b && Block.beq as bs
  | _, _ => false
termination_by structural l => l

end

instance : BEq Value := ⟨Value.beq⟩

instance : BEq Atom := ⟨Atom.beq⟩

instance : BEq Expr := ⟨Expr.beq⟩

namespace Expr

/-- An integer literal. -/
def int (n : Int64) : Expr := .literal (.int n) .int

/-- A character literal. -/
def char (c : Char) : Expr := .literal (.char c) .char

/-- The instruction `"noop"`, which does nothing. -/
def noop : Expr := .instr "noop" 0

end Expr

namespace Value

/-- The core stack whose type a value has. It is `none` for `.code` and `.custom`: the stacks for
code are never chosen by value. -/
def homeStack? : Value → Option StackId
  | .bool _ => some .bool
  | .int _ => some .int
  | .float _ => some .float
  | .char _ => some .char
  | .str _ => some .str
  | .bools _ => some .vectorBool
  | .ints _ => some .vectorInt
  | .floats _ => some .vectorFloat
  | .chars _ => some .vectorChar
  | .strs _ => some .vectorStr
  | .code _ => none
  | .custom _ _ => none

/-- The name of a value's kind. -/
def kind : Value → String
  | .bool _ => "bool"
  | .int _ => "int"
  | .float _ => "float"
  | .char _ => "char"
  | .str _ => "str"
  | .bools _ => "vector_bool"
  | .ints _ => "vector_int"
  | .floats _ => "vector_float"
  | .chars _ => "vector_char"
  | .strs _ => "vector_str"
  | .code _ => "code"
  | .custom type _ => type

end Value

end PushMachine
