import PushMachine.Term

/-! # Items of vectors

The types that have vectors: each ties the stack of its single values to the stack of its
vectors. -/

namespace PushMachine

/-- A type whose values can be the items of a vector. -/
class Item (α : Type) [BEq α] where
  /-- The stack of single items. -/
  stack : StackId
  /-- The stack of vectors. -/
  vector : StackId
  /-- The name of the stack `vector`. -/
  vectorsName : String
  /-- An item as a value. -/
  toValue : α → Value
  /-- The item that a value is; the inverse of `toValue`. -/
  ofValue? : Value → Option α
  /-- A vector as a value. -/
  toVector : List α → Value
  /-- The vector that a value is; the inverse of `toVector`. -/
  ofVector? : Value → Option (List α)

instance : Item Bool where
  stack := .bool
  vector := .vectorBool
  vectorsName := "vector_bool"
  toValue := .bool
  ofValue? := fun | .bool b => some b | _ => none
  toVector := .bools
  ofVector? := fun | .bools items => some items | _ => none

instance : Item Int64 where
  stack := .int
  vector := .vectorInt
  vectorsName := "vector_int"
  toValue := .int
  ofValue? := fun | .int n => some n | _ => none
  toVector := .ints
  ofVector? := fun | .ints items => some items | _ => none

instance : Item Float where
  stack := .float
  vector := .vectorFloat
  vectorsName := "vector_float"
  toValue := .float
  ofValue? := fun | .float x => some x | _ => none
  toVector := .floats
  ofVector? := fun | .floats items => some items | _ => none

instance : Item Char where
  stack := .char
  vector := .vectorChar
  vectorsName := "vector_char"
  toValue := .char
  ofValue? := fun | .char c => some c | _ => none
  toVector := .chars
  ofVector? := fun | .chars items => some items | _ => none

instance : Item String where
  stack := .str
  vector := .vectorStr
  vectorsName := "vector_str"
  toValue := .str
  ofValue? := fun | .str s => some s | _ => none
  toVector := .strs
  ofVector? := fun | .strs items => some items | _ => none

end PushMachine
