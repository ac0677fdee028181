import PushMachine.Code
import PushMachine.Decimal.Layout
import PushMachine.Json.Printer
import PushMachine.Text.Quoted

/-! # Displayed terms

The text of values and code, as programs print it and as traces show it. Code is written in
parentheses; strings and characters are quoted inside code and bare on their own. -/

namespace PushMachine

/-- **Doubles in displayed text**: positional from `10^-4` up to `10^16`, a bare exponent outside,
and an exact tie goes up. -/
def floatLayout : Decimal.Layout :=
  { least := -4, limit := 16, plusSign := false, tie := .up, nan := "NaN", infinity := "inf" }

/-- The text of a double: `NaN`, `inf` or `-inf`, or the shortest decimal that reads back as `x`. -/
def displayFloat (x : Float) : String := floatLayout.render x

/-- The text of a truth value. -/
def displayBool (b : Bool) : String := if b then "true" else "false"

/-- The text of an integer. -/
def displayInt (n : Int64) : String := toString n.toInt

/-- The text of a vector whose items have the given texts, such as `[1 2 3]`. -/
def displayVector (items : List String) : String := "[" ++ " ".intercalate items ++ "]"

mutual

/-- The text of a value. -/
def Value.display : Value → String
  | .bool b => displayBool b
  | .int n => displayInt n
  | .float x => displayFloat x
  | .char c => c.toString
  | .str s => s
  | .bools items => displayVector (items.map displayBool)
  | .ints items => displayVector (items.map displayInt)
  | .floats items => displayVector (items.map displayFloat)
  | .chars items => displayVector (items.map Char.toString)
  | .strs items => displayVector items
  | .code atom => Atom.display atom
  | .custom _ data => data.render

/-- The text of an atom. -/
def Atom.display : Atom → String
  | .closer => "close"
  | .expr e => Expr.display e

/-- The text of an expression. -/
def Expr.display : Expr → String
  | .literal value _ =>
    match value with
    | .str s => Text.quoteString s
    | .char c => Text.quoteChar c
    | value => Value.display value
  | .input index => "input_" ++ toString index
  | .instr name _ => name
  | .deferred name => name
  | .block body => "(" ++ Block.displayParts body ++ ")"

/-- The texts `Expr.display` of the parts of a block, divided by spaces. -/
def Block.displayParts : List Expr → String
  | [] => ""
  | [e] => Expr.display e
  | e :: rest => Expr.display e ++ " " ++ Block.displayParts rest

end

/-- The text of a block: `Block.displayParts body` in parentheses. -/
def Block.display (body : Block) : String := Expr.display (.block body)

end PushMachine
