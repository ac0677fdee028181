/-! # Limits

The limits of a run, and the signature of a stored program. Instructions see the two limits on
sizes only; how many steps and how much time a run may take, and how much one step may push, is
between the machine and its caller. The time is read off a `Clock`, which a run is given. -/

namespace PushMachine

/-- The limits on sizes that instructions obey, which every `Instruction.body` is given. -/
structure SizeCaps where
  /-- The most characters or items of a string, a vector, or the printed text. -/
  collectionSizeCap : Nat := 1000
  /-- The most points (`Block.size`) of code that an instruction builds. -/
  maxPoints : Nat := 1000
  deriving DecidableEq

/-- **The limits of a run**. -/
structure Limits extends SizeCaps where
  /-- The most steps. -/
  stepLimit : Nat := 500
  /-- The most time in milliseconds. -/
  runtimeLimitMs : Nat := 5000
  /-- The most items that one instruction may push, as `State.commit` counts them. -/
  growthCap : Nat := 500
  deriving DecidableEq

/-- **The clock of a run**, which `Library.proceed` looks at before each step. -/
structure Clock where
  /-- The time in nanoseconds that has passed when `steps` steps are taken. -/
  elapsed : (steps : Nat) → Nat

namespace Clock

/-- The clock that stands still; it is never `isSpent`. -/
def still : Clock := ⟨fun _ => 0⟩

/-- Whether more than `Limits.runtimeLimitMs` has passed when so many steps are taken. -/
def isSpent (clock : Clock) (limits : Limits) (steps : Nat) : Bool :=
  limits.runtimeLimitMs * 1000000 < clock.elapsed steps

end Clock

/-- How a program is called and what it returns. -/
structure Signature where
  /-- Number of inputs. -/
  arity : Nat := 0
  /-- The stacks whose top items are the outputs, by the names in the `Registry`. -/
  outputStacks : List String := []
  /-- The limits of its runs. -/
  limits : Limits := {}
  deriving DecidableEq

end PushMachine
