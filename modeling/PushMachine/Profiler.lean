import PushMachine.Text.Search
import PushMachine.Event

/-! # Profiling

A profiler keeps a scope open while an instruction runs, and counts the instructions that gave up.
Each scope has a label, which a labelling may choose. -/

namespace PushMachine

/-- Chooses the labels of instructions; `none` leaves the choice to the profiler. -/
abbrev Labelling := String → Option String

namespace Labelling

/-- Chooses no label. -/
def default : Labelling := fun _ => none

/-- The part of a name in front of its first underscore, or of the second one if the name is that of
a vector instruction, such as `vector_int` for `"vector_int_take"`. -/
def stackName? (name : String) : Option String :=
  match Text.pieces ['_'] name.toList with
  | first :: second :: rest =>
    if first = "vector".toList then
      if rest.isEmpty then none else some (String.ofList (first ++ '_' :: second))
    else some (String.ofList first)
  | _ => none

/-- Labels an instruction by the stack it works on (`stackName?`). -/
def byStack : Labelling := fun name => (stackName? name).map ("stack:" ++ ·)

end Labelling

/-- A scope that is open while an instruction runs. -/
structure Scope where
  /-- The step of the instruction. -/
  step : Nat
  /-- The label. -/
  label : String

/-- **A profiler**. -/
structure Profiler where
  /-- Chooses the labels. -/
  labelling : Labelling := .default
  /-- The open scopes, innermost first. -/
  scopes : List Scope := []
  /-- Number of instructions that gave up. -/
  reverts : Nat := 0

namespace Profiler

/-- The events that a profiler wants. -/
def mask : EventMask := { instr := true, revert := true }

/-- The label of an instruction: that of the `labelling`, or `"instr:" ++ name`. -/
def label (profiler : Profiler) (name : String) : String :=
  (profiler.labelling name).getD ("instr:" ++ name)

/-- Opens a scope with the `label` of an instruction. -/
def enter (profiler : Profiler) (name : String) (step : Nat) : Profiler :=
  { profiler with scopes := ⟨step, profiler.label name⟩ :: profiler.scopes }

/-- Closes the innermost scope if it belongs to `step`, and otherwise all scopes. -/
def exit (profiler : Profiler) (step : Nat) : Profiler :=
  match profiler.scopes with
  | [] => profiler
  | scope :: outer => { profiler with scopes := if scope.step = step then outer else [] }

/-- Counts an instruction that gave up. -/
def revert (profiler : Profiler) : Profiler := { profiler with reverts := profiler.reverts + 1 }

/-- What an event does to a profiler: `enter`, `exit` or `revert`. -/
def handle (event : Event) (profiler : Profiler) : Profiler :=
  match event with
  | .enter name step => profiler.enter name step
  | .exit _ step _ => profiler.exit step
  | .reverted _ _ => profiler.revert
  | _ => profiler

/-- The tracer whose data is a profiler, with its `mask` and `handle`. -/
def tracer : Tracer Profiler := ⟨mask, handle⟩

/-- A summary of a profiler. -/
def summary (profiler : Profiler) : String :=
  "ProfilingTraceSink \x7b stack_depth: " ++ toString profiler.scopes.length ++ ", reverts: " ++
    toString profiler.reverts ++ ", .. \x7d"

end Profiler

end PushMachine
