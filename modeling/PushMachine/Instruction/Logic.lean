import PushMachine.Instruction

/-! # Logic

Instructions on truth values. The deeper of two items is the left operand. -/

namespace PushMachine.Instruction

open Script

/-- Replaces two truth values by what `f` makes of them, the deeper one first. -/
def combineBools (f : Bool → Bool → Bool) : Script Unit := do
  let b ← popBool
  let a ← popBool
  pushBool (f a b)

/-- An instruction that replaces two truth values by one (`combineBools`). -/
def boolOperation (verb : String) (f : Bool → Bool → Bool) : Instruction :=
  { name := "bool_" ++ verb, inputs := [.bool, .bool], outputs := [.bool]
    body := fun _ => combineBools f }

/-- Negates a truth value. -/
def negateBool : Script Unit := do
  let a ← popBool
  pushBool !a

/-- Whether an integer is not zero. -/
def boolFromInt : Script Unit := do
  let n ← popInt
  pushBool (n != 0)

/-- Whether a double is not zero. -/
def boolFromFloat : Script Unit := do
  let x ← popFloat
  pushBool (x != 0.0)

/-- **The instructions on truth values**. -/
def logic : List Instruction :=
  [boolOperation "and" fun a b => a && b,
   boolOperation "or" fun a b => a || b,
   boolOperation "xor" fun a b => a != b,
   boolOperation "invert_first_then_and" fun a b => !a && b,
   boolOperation "invert_second_then_and" fun a b => a && !b,
   { name := "bool_not", inputs := [.bool], outputs := [.bool], body := fun _ => negateBool },
   { name := "bool_from_int", inputs := [.int], outputs := [.bool], body := fun _ => boolFromInt },
   { name := "bool_from_float", inputs := [.float], outputs := [.bool]
     body := fun _ => boolFromFloat }]

end PushMachine.Instruction
