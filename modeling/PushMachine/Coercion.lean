import PushMachine.Decimal.Reader
import PushMachine.Number
import PushMachine.Term
import PushMachine.Text.Blank

/-! # Coercions

How a value of one kind is taken for a value of another when a stored literal names its type. Each
function leaves values of its own kind alone and answers none where no reading makes sense. -/

namespace PushMachine.Value

/-- The only character of `s`, or `none` if its length is not one. -/
def singleChar? (s : String) : Option Char :=
  match s.toList with
  | [c] => some c
  | _ => none

/-- The character of a code point, or `none` if `n` is not one. -/
def charOfInt? (n : Int64) : Option Char :=
  if h : n.toInt.toNat.isValidChar ∧ 0 ≤ n.toInt then some (Char.ofNatAux n.toInt.toNat h.1)
  else none

/-- Code stays code, and every other value gives `none`. -/
def toCode? : Value → Option Value
  | .code atom => some (.code atom)
  | _ => none

/-- A number is true unless it is zero. -/
def toBool? : Value → Option Value
  | .bool b => some (.bool b)
  | .int n => some (.bool (n != 0))
  | .float x => some (.bool (x != 0.0))
  | _ => none

/-- The integer of a truth value, a finite double, a character's code point, or a decimal text.
Doubles are truncated by `truncateToInt`. -/
def toInt? : Value → Option Value
  | .int n => some (.int n)
  | .bool b => some (.int (if b then 1 else 0))
  | .float x => if x.isFinite then some (.int (truncateToInt x)) else none
  | .char c => some (.int (Int64.ofNat c.toNat))
  | .str s => (Decimal.readInt128? (Text.trim s.toList)).map fun n => .int (clampInt n)
  | _ => none

/-- The double of an integer, a truth value, or a decimal text. -/
def toFloat? : Value → Option Value
  | .float x => some (.float x)
  | .int n => some (.float (Float.ofInt n.toInt))
  | .bool b => some (.float (if b then 1.0 else 0.0))
  | .str s => (Decimal.readFloat? (Text.trim s.toList)).map .float
  | _ => none

/-- The character of a one-character string (`singleChar?`) or of a code point (`charOfInt?`). -/
def toChar? : Value → Option Value
  | .char c => some (.char c)
  | .str s => (singleChar? s).map .char
  | .int n => (charOfInt? n).map .char
  | _ => none

/-- A character is a one-character string. -/
def toStr? : Value → Option Value
  | .str s => some (.str s)
  | .char c => some (.str c.toString)
  | _ => none

/-- A vector of truth values stays one. -/
def toBools? : Value → Option Value
  | .bools items => some (.bools items)
  | _ => none

/-- A vector of integers stays one. -/
def toInts? : Value → Option Value
  | .ints items => some (.ints items)
  | _ => none

/-- A vector of integers is a vector of doubles. -/
def toFloats? : Value → Option Value
  | .floats items => some (.floats items)
  | .ints items => some (.floats (items.map fun n => Float.ofInt n.toInt))
  | _ => none

/-- A vector of one-character strings is a vector of characters, if `singleChar?` finds each. -/
def toChars? : Value → Option Value
  | .chars items => some (.chars items)
  | .strs items => (items.mapM singleChar?).map .chars
  | _ => none

/-- A vector of strings stays one. -/
def toStrs? : Value → Option Value
  | .strs items => some (.strs items)
  | _ => none

end PushMachine.Value
