import PushMachine.StopReason

/-! # Events

What a run reports while it goes on. A tracer says which kinds of events it wants, and what becomes
of its own data when one arrives. -/

namespace PushMachine

/-- How the call of an instruction ended. -/
inductive Outcome where
  /-- The instruction kept its effects and `pushed` this many items. -/
  | committed (pushed : Nat)
  /-- The instruction had no effect. -/
  | reverted
  /-- The instruction ended the run. -/
  | terminated
  deriving DecidableEq

/-- An event of a run. Steps are counted from one. -/
inductive Event where
  /-- The run starts. -/
  | runStart (code : Block) (inputCount : Nat)
  /-- An atom is taken from the pending work, as the step of this `number`. -/
  | step (number : Nat) (atom : Atom)
  /-- The instruction `name` is called. -/
  | enter (name : String) (step : Nat)
  /-- The call of the instruction `name` ends. -/
  | exit (name : String) (step : Nat) (outcome : Outcome)
  /-- An instruction gives up. -/
  | reverted (name : String) (step : Nat)
  /-- The run has ended. -/
  | runEnd (steps : Nat) (reason : StopReason)

/-- **A set of kinds of events**. -/
structure EventMask where
  /-- Start and end of runs. -/
  run : Bool := false
  /-- Steps. -/
  step : Bool := false
  /-- Calls of instructions. -/
  instr : Bool := false
  /-- Instructions that give up. -/
  revert : Bool := false
  deriving DecidableEq

namespace EventMask

/-- No event. -/
def none : EventMask := {}

/-- Every event. -/
def all : EventMask := ⟨true, true, true, true⟩

/-- The kinds of `a` or `b`. -/
def union (a b : EventMask) : EventMask :=
  ⟨a.run || b.run, a.step || b.step, a.instr || b.instr, a.revert || b.revert⟩

/-- Whether the mask `a` has all kinds of `b`. -/
def contains (a b : EventMask) : Bool := a.union b = a

/-- Whether a mask has the kind of an event. The kind `instr` has both ends of a call. -/
def wants (mask : EventMask) : Event → Bool
  | .runStart _ _ => mask.run
  | .step _ _ => mask.step
  | .enter _ _ => mask.instr
  | .exit _ _ _ => mask.instr
  | .reverted _ _ => mask.revert
  | .runEnd _ _ => mask.run

end EventMask

/-- **A tracer** with data of type `σ`. -/
structure Tracer (σ : Type) where
  /-- The events it wants. -/
  mask : EventMask
  /-- What an event does to its data. -/
  handle : Event → σ → σ

namespace Tracer

variable {σ : Type}

/-- Hands an event to `handle`, if the `mask` wants it. -/
def emit (tracer : Tracer σ) (event : Event) (data : σ) : σ :=
  if tracer.mask.wants event then tracer.handle event data else data

/-- The tracer that wants nothing. -/
def silent : Tracer Unit := ⟨.none, fun _ _ => ()⟩

/-- The tracer that keeps the events a `mask` wants, last first. -/
def recorder (mask : EventMask) : Tracer (List Event) := ⟨mask, List.cons⟩

end Tracer

end PushMachine
