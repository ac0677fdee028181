/-! # Stack identifiers

Every stack of the machine has a number. The twelve core stacks have fixed numbers, so that
instructions can name them; types added later get the numbers after them. -/

namespace PushMachine

/-- The number of a stack. -/
structure StackId where
  /-- The position of the stack among all stacks. -/
  index : Nat
  deriving DecidableEq

namespace StackId

/-- Pending work. -/
def exec : StackId := ⟨0⟩

/-- Code kept as data. -/
def code : StackId := ⟨1⟩

/-- Truth values. -/
def bool : StackId := ⟨2⟩

/-- Integers. -/
def int : StackId := ⟨3⟩

/-- Doubles. -/
def float : StackId := ⟨4⟩

/-- Characters. -/
def char : StackId := ⟨5⟩

/-- Strings. -/
def str : StackId := ⟨6⟩

/-- Vectors of truth values. -/
def vectorBool : StackId := ⟨7⟩

/-- Vectors of integers. -/
def vectorInt : StackId := ⟨8⟩

/-- Vectors of doubles. -/
def vectorFloat : StackId := ⟨9⟩

/-- Vectors of characters. -/
def vectorChar : StackId := ⟨10⟩

/-- Vectors of strings. -/
def vectorStr : StackId := ⟨11⟩

/-- Number of core stacks; every later stack has an `index` from `coreSize` on. -/
def coreSize : Nat := 12

end StackId

end PushMachine
