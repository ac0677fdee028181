import PushMachine.Instruction

/-! # Arithmetic

Instructions on integers and doubles. Integers are computed exactly and then clamped; division and
remainder go to the floor and give up on a zero divisor. Doubles are clamped too, and give up on a
NaN. The deeper of two items is the left operand. -/

namespace PushMachine.Instruction

open Script

/-- The floor of the quotient `a / b`; `none` for a zero divisor. -/
def quotient? (a b : Int) : Option Int := if b = 0 then none else some (a.fdiv b)

/-- The remainder of `a` by `b` that belongs to `quotient?`; `none` for a zero divisor. -/
def remainder? (a b : Int) : Option Int := if b = 0 then none else some (a.fmod b)

/-- Replaces two integers by `clampInt` of what `f` makes of them, the deeper one first. -/
def combineInts (f : Int → Int → Option Int) : Script Unit := do
  let b ← popInt
  let a ← popInt
  let result ← ofOption (f a.toInt b.toInt)
  pushInt (clampInt result)

/-- Replaces an integer by `clampInt` of what `f` makes of it. -/
def changeInt (f : Int → Int) : Script Unit := do
  let a ← popInt
  pushInt (clampInt (f a.toInt))

/-- Compares two integers by `f`, the deeper one first. -/
def compareInts (f : Int64 → Int64 → Bool) : Script Unit := do
  let b ← popInt
  let a ← popInt
  pushBool (f a b)

/-- Replaces two doubles by `clampFloat?` of what `f` makes of them, the deeper one first. -/
def combineFloats (f : Float → Float → Option Float) : Script Unit := do
  let b ← popFloat
  let a ← popFloat
  let result ← ofOption ((f a b).bind clampFloat?)
  push .float (.float result)

/-- Replaces a double by `clampFloat?` of what `f` makes of it. -/
def changeFloat (f : Float → Float) : Script Unit := do
  let a ← popFloat
  let result ← ofOption (clampFloat? (f a))
  push .float (.float result)

/-- Compares two doubles by `f`, the deeper one first. -/
def compareFloats (f : Float → Float → Bool) : Script Unit := do
  let b ← popFloat
  let a ← popFloat
  pushBool (f a b)

/-- The smaller of two doubles; a NaN gives way to the other one. -/
def minFloat (a b : Float) : Float := if a.isNaN then b else if b < a then b else a

/-- The larger of two doubles; a NaN gives way to the other one. -/
def maxFloat (a b : Float) : Float := if a.isNaN then b else if a < b then b else a

/-- The quotient of two doubles; `none` for a zero divisor. -/
def divFloat? (a b : Float) : Option Float := if b != 0.0 then some (a / b) else none

/-- The remainder `a - b * ⌊a / b⌋` of two doubles; `none` for a zero divisor. -/
def modFloat? (a b : Float) : Option Float :=
  if b != 0.0 then some (a - b * (a / b).floor) else none

/-- An instruction that replaces two integers by one (`combineInts`). -/
def intOperation (verb : String) (f : Int → Int → Option Int) : Instruction :=
  { name := "int_" ++ verb, inputs := [.int, .int], outputs := [.int]
    body := fun _ => combineInts f }

/-- An instruction that changes an integer (`changeInt`). -/
def intChange (verb : String) (f : Int → Int) : Instruction :=
  { name := "int_" ++ verb, inputs := [.int], outputs := [.int], body := fun _ => changeInt f }

/-- An instruction that compares two integers (`compareInts`). -/
def intCompare (verb : String) (f : Int64 → Int64 → Bool) : Instruction :=
  { name := "int_" ++ verb, inputs := [.int, .int], outputs := [.bool]
    body := fun _ => compareInts f }

/-- An instruction that replaces two doubles by one (`combineFloats`). -/
def floatOperation (verb : String) (f : Float → Float → Option Float) : Instruction :=
  { name := "float_" ++ verb, inputs := [.float, .float], outputs := [.float]
    body := fun _ => combineFloats f }

/-- An instruction that changes a double (`changeFloat`). -/
def floatChange (verb : String) (f : Float → Float) : Instruction :=
  { name := "float_" ++ verb, inputs := [.float], outputs := [.float]
    body := fun _ => changeFloat f }

/-- An instruction that compares two doubles (`compareFloats`). -/
def floatCompare (verb : String) (f : Float → Float → Bool) : Instruction :=
  { name := "float_" ++ verb, inputs := [.float, .float], outputs := [.bool]
    body := fun _ => compareFloats f }

/-- The integer of a truth value. -/
def intFromBool : Script Unit := do
  let b ← popBool
  pushInt (if b then 1 else 0)

/-- The integer part of a double, by `truncateToInt`. -/
def intFromFloat : Script Unit := do
  let x ← popFloat
  pushInt (truncateToInt x)

/-- The double nearest to an integer. -/
def floatFromInt : Script Unit := do
  let n ← popInt
  push .float (.float (Float.ofInt n.toInt))

/-- The double of a truth value. -/
def floatFromBool : Script Unit := do
  let b ← popBool
  push .float (.float (if b then 1.0 else 0.0))

/-- **The instructions on numbers**. -/
def arithmetic : List Instruction :=
  [intOperation "add" fun a b => some (a + b),
   intOperation "sub" fun a b => some (a - b),
   intOperation "mult" fun a b => some (a * b),
   intOperation "div" quotient?,
   intOperation "mod" remainder?,
   intOperation "min" fun a b => some (min a b),
   intOperation "max" fun a b => some (max a b),
   intChange "inc" (· + 1),
   intChange "dec" (· - 1),
   intCompare "lt" fun a b => a < b,
   intCompare "lte" fun a b => a ≤ b,
   intCompare "gt" fun a b => b < a,
   intCompare "gte" fun a b => b ≤ a,
   floatOperation "add" fun a b => some (a + b),
   floatOperation "sub" fun a b => some (a - b),
   floatOperation "mult" fun a b => some (a * b),
   floatOperation "div" divFloat?,
   floatOperation "mod" modFloat?,
   floatOperation "min" fun a b => some (minFloat a b),
   floatOperation "max" fun a b => some (maxFloat a b),
   floatChange "inc" (· + 1.0),
   floatChange "dec" (· - 1.0),
   floatChange "sin" Float.sin,
   floatChange "cos" Float.cos,
   floatChange "tan" Float.tan,
   floatCompare "lt" fun a b => a < b,
   floatCompare "lte" fun a b => a ≤ b,
   floatCompare "gt" fun a b => b < a,
   floatCompare "gte" fun a b => b ≤ a,
   { name := "int_from_bool", inputs := [.bool], outputs := [.int], body := fun _ => intFromBool },
   { name := "int_from_float", inputs := [.float], outputs := [.int]
     body := fun _ => intFromFloat },
   { name := "float_from_int", inputs := [.int], outputs := [.float]
     body := fun _ => floatFromInt },
   { name := "float_from_bool", inputs := [.bool], outputs := [.float]
     body := fun _ => floatFromBool }]

end PushMachine.Instruction
