import PushMachine.Proofs.ScriptRules

/-! # The stacks that an instruction uses

A script uses the stacks that its operations address (`Script.Uses`). A stack that a script does not
use stays as it is, and what lies on it makes no difference: replacing it before the script and
after the script is the same (`Script.Uses.run_setStack`).

Most core instructions use the stacks that they declare and no others (`Instruction.Confined`). The
exceptions are the three instructions of a stack that count or flush it without declaring it, and
the loop that reads truth values only if there are some
(`InstructionSet.instructionsFor_confined`). -/

namespace PushMachine

/-! ## A stack that is not addressed -/

namespace State

variable {state : State} {id other : StackId} {items new : List Value} {op : Op}

/-- Replacements of two stacks can be exchanged, if `other ≠ id`. -/
theorem setStack_comm (h : other ≠ id) :
    (state.setStack id items).setStack other new =
      (state.setStack other new).setStack id items := by
  have hne : id.index ≠ other.index := fun heq => h (congrArg StackId.mk heq.symm)
  simp only [setStack, List.set_comm _ _ hne]

/-- A note can be made before or after a replacement. -/
theorem note_setStack (change : Change) :
    (state.setStack id items).note change = (state.note change).setStack id items := by
  rw [note, note]
  split
  next hopen => exact (if_pos hopen).symm ▸ rfl
  next hclosed => exact (if_neg hclosed).symm ▸ rfl

/-- The `items` of another stack are not replaced. -/
theorem items_setStack (h : other ≠ id) :
    (state.setStack id items).items other = state.items other := by
  rw [State.items, stack?_setStack_of_ne h, State.items]

/-- The number of items of another stack stays the same. -/
theorem depth_setStack (h : other ≠ id) :
    (state.setStack id items).depth other = state.depth other := by
  rw [depth, stack?_setStack_of_ne h, depth]

/-- **A replaced stack makes no difference** to an operation that is `Within` the other stacks. -/
theorem apply_setStack (within : op.Within (· ≠ id)) :
    (state.setStack id items).apply op =
      (state.apply op).map fun done => (done.1, done.2.setStack id items) := by
  cases op with
  | push other value =>
    have hother : other ≠ id := within
    simp only [apply, push, items_setStack hother]
    cases state.items other with
    | error fault => rfl
    | ok found =>
      show Except.ok _ = Except.ok _
      congr 2
      rw [← note_setStack, setStack_comm hother]
      rfl
  | pop other =>
    have hother : other ≠ id := within
    simp only [apply, pop, itemsOrFault, items_setStack hother]
    cases state.items other with
    | error fault => rfl
    | ok found =>
      cases found with
      | nil => rfl
      | cons value rest =>
        show Except.ok _ = Except.ok _
        congr 2
        rw [setStack_comm hother, note_setStack]
  | peek other place =>
    have hother : other ≠ id := within.1
    simp only [apply, peek, itemsOrFault, items_setStack hother]
    cases state.items other with
    | error fault => rfl
    | ok found =>
      simp only [Except.mapError, bind, Except.bind]
      cases found[place]? <;> rfl
  | depth other =>
    have hother : other ≠ id := within
    simp only [apply, depth_setStack hother]
    rfl
  | flush other =>
    have hother : other ≠ id := within
    simp only [apply, flush, itemsOrFault, items_setStack hother]
    cases state.items other with
    | error fault => rfl
    | ok found =>
      show Except.ok _ = Except.ok _
      congr 2
      rw [setStack_comm hother, note_setStack]
  | yank other place =>
    have hother : other ≠ id := within.1
    simp only [apply, yank, itemsOrFault, items_setStack hother]
    cases state.items other with
    | error fault => rfl
    | ok found =>
      simp only [Except.mapError, bind, Except.bind]
      cases found[place]? with
      | none => rfl
      | some value =>
        show Except.ok _ = Except.ok _
        congr 2
        rw [setStack_comm hother, note_setStack]
  | shove other place value =>
    have hother : other ≠ id := within
    simp only [apply, shove, itemsOrFault, items_setStack hother]
    cases state.items other with
    | error fault => rfl
    | ok found =>
      show Except.ok _ = Except.ok _
      congr 2
      rw [← note_setStack, setStack_comm hother]
      rfl
  | print text cap =>
    simp only [apply, print, note_setStack]
    show Except.map _ (if cap < state.stdoutLength + text.length then _ else _) =
      Except.map _ (Except.map _ (if cap < state.stdoutLength + text.length then _ else _))
    split <;> rfl

/-- An operation leaves a stack alone that it is not `Within`. -/
theorem Did.stack?_eq {result : op.Result} {after : State} (did : state.Did op result after)
    (within : op.Within (· ≠ id)) : after.stack? id = state.stack? id := by
  cases did with
  | push found | pop found | flush found | shove found =>
    rw [stack?_note]
    exact stack?_setStack_of_ne (Ne.symm within) _
  | yank found item =>
    rw [stack?_note]
    exact stack?_setStack_of_ne (Ne.symm within.1) _
  | peek found item | depth => rfl
  | print fits => exact stack?_note _

/-- No item is looked for past the end of machine words, as `Op.Within` excludes it. -/
theorem apply_ne_outOfBounds {p : StackId → Prop} (state : State) (within : op.Within p) :
    state.apply op ≠ .error .outOfBounds := by
  have htooDeep {place : Nat} (hlt : place < maxDepth) : tooDeep place = .revert := by
    rw [tooDeep, if_neg (Nat.ne_of_lt hlt)]
  -- Apart from items that are too deep, an operation fails for its stack or gives up.
  cases op with
  | push other value =>
    simp only [apply]
    cases state.push other value <;> exact fun hfault => by cases hfault
  | pop other =>
    rw [apply, pop, itemsOrFault]
    cases state.items other with
    | error fault => exact fun hfault => by cases hfault
    | ok found => cases found <;> exact fun hfault => by cases hfault
  | peek other place =>
    rw [apply, peek, itemsOrFault, htooDeep within.2]
    cases state.items other with
    | error fault => exact fun hfault => by cases hfault
    | ok found =>
      simp only [Except.mapError, bind, Except.bind]
      cases found[place]? <;> exact fun hfault => by cases hfault
  | depth other => exact fun hfault => by cases hfault
  | flush other =>
    rw [apply, flush, itemsOrFault]
    cases state.items other <;> exact fun hfault => by cases hfault
  | yank other place =>
    rw [apply, yank, itemsOrFault, htooDeep within.2]
    cases state.items other with
    | error fault => exact fun hfault => by cases hfault
    | ok found =>
      simp only [Except.mapError, bind, Except.bind]
      cases found[place]? <;> exact fun hfault => by cases hfault
  | shove other place value =>
    rw [apply, shove, itemsOrFault]
    cases state.items other <;> exact fun hfault => by cases hfault
  | print text cap =>
    rw [apply, print]
    split <;> exact fun hfault => by cases hfault

end State

/-! ## Scripts -/

namespace Script

variable {α : Type} {p q : StackId → Prop} {script : Script α} {id : StackId}

/-- **A script uses stacks with the property `p`** if each of its operations is within them. -/
def Uses (p : StackId → Prop) (script : Script α) : Prop :=
  ∃ post owned, script.Follows (fun op _ => op.Within p) post owned

namespace Uses

/-- The first operation is `Within` such stacks, and what comes after it uses such stacks. -/
theorem act {op : Op} {next : op.Result → Script α} (uses : (Script.act op next).Uses p) :
    op.Within p ∧ ∀ result, (next result).Uses p := by
  obtain ⟨post, owned, hop, hnext⟩ := uses
  exact ⟨hop, fun result => ⟨post, _, hnext result⟩⟩

/-- A wider range of stacks. -/
theorem mono (h : ∀ id, p id → q id) (uses : script.Uses p) : script.Uses q := by
  obtain ⟨post, owned, follows⟩ := uses
  exact ⟨post, owned, follows.mono fun _ _ => Op.Within.mono h⟩

/-- **A stack that a script does not use** can be replaced by `setStack` before it or after it. -/
theorem run_setStack (uses : script.Uses (· ≠ id)) (state : State) (items : List Value) :
    script.run (state.setStack id items) =
      ((script.run state).1, (script.run state).2.setStack id items) := by
  induction script generalizing state with
  | done result => rfl
  | fail fault => rfl
  | act op next ih =>
    rw [run, run, State.apply_setStack uses.act.1]
    cases state.apply op with
    | error fault => rfl
    | ok done => exact ih done.1 (uses.act.2 done.1) done.2

/-- A stack that a script does not use stays as it is. -/
theorem stack?_run (uses : script.Uses (· ≠ id)) (state : State) :
    (script.run state).2.stack? id = state.stack? id := by
  induction script generalizing state with
  | done result => rfl
  | fail fault => rfl
  | act op next ih =>
    rw [run]
    rcases state.apply_cases op with ⟨result, after, happly, did⟩ | ⟨fault, happly, -⟩
    · rw [happly]
      exact (ih result (uses.act.2 result) after).trans (did.stack?_eq uses.act.1)
    · rw [happly]

/-- A script that uses some stacks does not fail with `.outOfBounds`. -/
theorem run_ne_outOfBounds (uses : script.Uses p) (state : State) :
    (script.run state).1 ≠ .error .outOfBounds := by
  induction script generalizing state with
  | done result => exact nofun
  | fail fault =>
    intro h
    obtain ⟨_, _, hfault⟩ := uses
    exact hfault (Except.error.inj h)
  | act op next ih =>
    rw [run]
    have hbounded := state.apply_ne_outOfBounds uses.act.1
    cases happly : state.apply op with
    | error fault =>
      rw [happly] at hbounded
      exact fun h => hbounded (congrArg Except.error (Except.error.inj h))
    | ok done => exact ih done.1 (uses.act.2 done.1) done.2

end Uses

end Script

/-! ## Instructions -/

namespace Instruction

variable {instruction : Instruction} {caps : SizeCaps} {id : StackId} {others : List StackId}

/-- **An instruction that uses the stacks that it declares** (`touched`), some `others`, and no
more. -/
def Confined (instruction : Instruction) (others : List StackId) : Prop :=
  ∀ caps, (instruction.body caps).Uses (· ∈ others ++ instruction.touched)

/-- An instruction that is `Plain` uses what it declares. -/
theorem Plain.confined (plain : instruction.Plain) : instruction.Confined [] :=
  fun caps => ⟨_, _, (plain caps).mono fun _ _ h => h.1⟩

/-- An instruction that is `Discreet` uses what it declares and the `others`. -/
theorem Discreet.confined (discreet : instruction.Discreet others) : instruction.Confined others :=
  fun caps => ⟨_, _, (discreet caps).mono fun _ _ h => h.1⟩

/-- The printing instruction of a stack uses it. -/
theorem printing_confined (id : StackId) (type : String) : (printing id type).Confined [] := by
  refine fun caps => ⟨fun _ _ => True, [id], ?_⟩
  simp [printing, touched, printTop]

/-- Printing a line break uses no stack. -/
theorem printNewline_confined : printNewline.Confined [] :=
  fun _ => ⟨fun _ _ => True, [], trivial, fun _ => trivial⟩

/-! ### Trying an instruction -/

section Eval

/-- A stack that is not among the `inputs` makes no difference to whether an instruction is ready.
-/
theorem ready_setStack (undeclared : id ∉ instruction.inputs) (state : State) (items : List Value) :
    instruction.ready (state.setStack id items) = instruction.ready state := by
  rw [Bool.eq_iff_iff, ready, ready, List.all_eq_true, List.all_eq_true]
  refine forall₂_congr fun other hother => ?_
  have hne : other ≠ id := fun heq => undeclared (heq ▸ hother)
  rw [State.depth_setStack hne]

variable (uses : (instruction.body caps).Uses (· ≠ id))
include uses

/-- **A stack that an instruction does not use** can be replaced by `setStack` before it or after
it. -/
theorem eval_setStack (undeclared : id ∉ instruction.inputs) (state : State) (items : List Value) :
    instruction.eval caps (state.setStack id items) =
      ((instruction.eval caps state).1, (instruction.eval caps state).2.setStack id items) := by
  rw [eval, eval, ready_setStack undeclared]
  split
  · exact uses.run_setStack state items
  · rfl

/-- A stack that an instruction does not use stays as it is. -/
theorem stack?_eval (state : State) :
    (instruction.eval caps state).2.stack? id = state.stack? id := by
  rw [eval]
  split
  · exact uses.stack?_run state
  · rfl

/-- An instruction that uses some stacks does not fail with `.outOfBounds`. -/
theorem eval_ne_outOfBounds (state : State) :
    (instruction.eval caps state).1 ≠ .error .outOfBounds := by
  rw [eval]
  split
  · exact uses.run_ne_outOfBounds state
  · exact nofun

end Eval

end Instruction

namespace InstructionSet

variable {registry : Registry} {instruction : Instruction}

/-- **What the instructions for a registry use**: what they declare, and in two cases one more
stack, that of a verb of `quietVerbs` or `.bool`. -/
theorem instructionsFor_confined :
    ∀ instruction ∈ instructionsFor registry, instruction.Confined [] ∨
      (∃ id type, registry.get? id = some type ∧
        (∃ verb ∈ Instruction.quietVerbs, instruction.name = type.name ++ "_" ++ verb) ∧
          instruction.Confined [id]) ∨
      instruction.name = "exec_while" ∧ .exec ∈ instruction.touched ∧
        instruction.Confined [.bool] := by
  intro instruction hmem
  cases instructionsFor_sorted instruction hmem with
  | plain plain => exact .inl plain.confined
  | @deep _ id type verb registered _ named discreet =>
    rcases discreet with hdeclared | ⟨hverb, hown⟩
    · exact .inl hdeclared.confined
    · exact .inr (.inl ⟨id, type, registered, ⟨verb, hverb, named⟩, hown.confined⟩)
  | printing _ => exact .inl (Instruction.printing_confined _ _)
  | printNewline => exact .inl Instruction.printNewline_confined
  | waiting named exec discreet => exact .inr (.inr ⟨named, exec, discreet.confined⟩)

end InstructionSet

end PushMachine
