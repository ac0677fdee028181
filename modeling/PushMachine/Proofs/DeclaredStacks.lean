import PushMachine.Proofs.Footprint
import PushMachine.Proofs.StackTyping

/-! # Declared stacks

A set of instructions is cut down to some stacks by what the instructions declare, so a declaration
should name every stack that a body reads or changes. `Instruction.ActsOn` says what that means for
a range of stacks: the others are left alone, and two states that agree on the range lead to the
same outcome and to states that agree on it.

The core instructions act on the stacks that they declare, apart from two kinds: those that flush,
count or test a stack of any type without declaring it, and the loop that takes a truth value if
there is one. They escape the restriction to some stacks (`InstructionSet.core_not_actsOn_touched`).
-/

namespace PushMachine

/-! ## States that agree -/

/-- **Two states that agree** on the stacks with the property `p` and on the printed text. -/
structure State.Agrees (p : StackId → Prop) (state other : State) : Prop where
  /-- The stacks in the range are the same. -/
  stack?_eq : ∀ id, p id → other.stack? id = state.stack? id
  /-- The printed text is the same. -/
  stdout_eq : other.stdout = state.stdout
  /-- The counts of printed characters are the same. -/
  stdoutLength_eq : other.stdoutLength = state.stdoutLength

namespace State

variable {p : StackId → Prop} {state other : State} {id : StackId}

/-- The `items` of a stack in the range are the same. -/
theorem Agrees.items_eq (agrees : state.Agrees p other) (hid : p id) :
    other.items id = state.items id := by
  rw [State.items, State.items, agrees.stack?_eq id hid]

/-- The number of items of a stack in the range is the same. -/
theorem Agrees.depth_eq (agrees : state.Agrees p other) (hid : p id) :
    other.depth id = state.depth id := by
  rw [depth, depth, agrees.stack?_eq id hid]

/-- Notes make no difference, whether they are kept or not. -/
theorem Agrees.note (agrees : state.Agrees p other) (change : Change) :
    (state.note change).Agrees p (other.note change) where
  stack?_eq id hid := by
    rw [stack?_note, stack?_note]
    exact agrees.stack?_eq id hid
  stdout_eq := by
    rw [stdout_note, stdout_note]
    exact agrees.stdout_eq
  stdoutLength_eq := by
    rw [stdoutLength_note, stdoutLength_note]
    exact agrees.stdoutLength_eq

/-- A stack in the range can be replaced in both states. -/
theorem Agrees.setStack (agrees : state.Agrees p other) (hid : p id) {items : List Value}
    (found : state.stack? id = some items) (new : List Value) :
    (state.setStack id new).Agrees p (other.setStack id new) where
  stack?_eq place hplace := by
    by_cases heq : place = id
    · have hother : other.stack? id = some items := (agrees.stack?_eq id hid).trans found
      rw [heq, stack?_setStack_self found, stack?_setStack_self hother]
    · rw [stack?_setStack_of_ne heq, stack?_setStack_of_ne heq]
      exact agrees.stack?_eq place hplace
  stdout_eq := agrees.stdout_eq
  stdoutLength_eq := agrees.stdoutLength_eq

/-- What an operation does in two states: it fails alike, or it has the same result and leads to
states that agree (`State.Agrees`). -/
inductive Alike (p : StackId → Prop) {α : Type} :
    Except Fault (α × State) → Except Fault (α × State) → Prop where
  /-- It fails in the same way. -/
  | failed (fault : Fault) : Alike p (.error fault) (.error fault)
  /-- It has the same result. -/
  | done (result : α) {after other : State} (agrees : after.Agrees p other) :
    Alike p (.ok (result, after)) (.ok (result, other))

/-- **The step**: an operation `Within p` does the same in states that agree on `p`. -/
theorem Agrees.apply (agrees : state.Agrees p other) {op : Op} (within : op.Within p) :
    Alike p (state.apply op) (other.apply op) := by
  -- An operation reads the stack that it addresses or the text, and both states have the same.
  cases op with
  | push id value =>
    have hid : p id := within
    simp only [State.apply, State.push, agrees.items_eq hid]
    rw [State.items]
    cases found : state.stack? id with
    | none => exact .failed _
    | some items =>
      refine .done () (Agrees.note ?_ _)
      obtain ⟨hstacks, hstdout, hlength⟩ := agrees.setStack hid found (value :: items)
      exact ⟨hstacks, hstdout, hlength⟩
  | pop id =>
    have hid : p id := within
    simp only [State.apply, State.pop, itemsOrFault, agrees.items_eq hid]
    rw [State.items]
    cases found : state.stack? id with
    | none => exact .failed _
    | some items =>
      cases items with
      | nil => exact .failed _
      | cons value rest => exact .done value ((agrees.setStack hid found rest).note _)
  | peek id place =>
    have hid : p id := within.1
    simp only [State.apply, State.peek, itemsOrFault, agrees.items_eq hid]
    rw [State.items]
    cases found : state.stack? id with
    | none => exact .failed _
    | some items =>
      simp only [Except.mapError, bind, Except.bind]
      cases items[place]? with
      | none => exact .failed _
      | some value => exact .done value agrees
  | depth id =>
    have hid : p id := within
    simp only [State.apply, agrees.depth_eq hid]
    exact .done _ agrees
  | flush id =>
    have hid : p id := within
    simp only [State.apply, State.flush, itemsOrFault, agrees.items_eq hid]
    rw [State.items]
    cases found : state.stack? id with
    | none => exact .failed _
    | some items => exact .done () ((agrees.setStack hid found []).note _)
  | yank id place =>
    have hid : p id := within.1
    simp only [State.apply, State.yank, itemsOrFault, agrees.items_eq hid]
    rw [State.items]
    cases found : state.stack? id with
    | none => exact .failed _
    | some items =>
      simp only [Except.mapError, bind, Except.bind]
      cases items[place]? with
      | none => exact .failed _
      | some value => exact .done value ((agrees.setStack hid found (items.eraseIdx place)).note _)
  | shove id place value =>
    have hid : p id := within
    simp only [State.apply, State.shove, itemsOrFault, agrees.items_eq hid]
    rw [State.items]
    cases found : state.stack? id with
    | none => exact .failed _
    | some items =>
      refine .done () (Agrees.note ?_ _)
      obtain ⟨hstacks, hstdout, hlength⟩ :=
        agrees.setStack hid found (items.insertIdx (min place items.length) value)
      exact ⟨hstacks, hstdout, hlength⟩
  | print text cap =>
    simp only [State.apply, State.print, agrees.stdoutLength_eq, agrees.stdout_eq]
    split
    · exact .failed _
    · obtain ⟨hstacks, hstdout, hlength⟩ := agrees.note (.printed state.stdout.utf8ByteSize)
      refine .done () ⟨hstacks, ?_, ?_⟩
      · exact congrArg (· ++ text) hstdout
      · exact congrArg (· + text.length) hlength

end State

/-- **The run**: a script that `Uses` stacks in the range does the same in states that agree. -/
theorem Script.Uses.run_agrees {α : Type} {p : StackId → Prop} {script : Script α}
    (uses : script.Uses p) {state other : State}
    (agrees : state.Agrees p other) :
    (script.run other).1 = (script.run state).1 ∧
      (script.run state).2.Agrees p (script.run other).2 := by
  induction script generalizing state other with
  | done result => exact ⟨rfl, agrees⟩
  | fail fault => exact ⟨rfl, agrees⟩
  | act op next ih =>
    have halike := agrees.apply uses.act.1
    rw [run, run]
    -- The results become variables, so that `Alike` can be taken apart.
    revert halike
    generalize state.apply op = first
    generalize other.apply op = second
    intro halike
    cases halike with
    | failed fault => exact ⟨rfl, agrees⟩
    | done result hafter => exact ih result (uses.act.2 result) hafter

/-! ## Instructions -/

namespace Instruction

/-- **An instruction that acts on a range of stacks** neither changes nor reads any other one, as
far as `eval` can tell. -/
structure ActsOn (instruction : Instruction) (range : List StackId) : Prop where
  /-- The other stacks stay as they are. -/
  unchanged : ∀ caps state, ∀ id ∉ range,
    (instruction.eval caps state).2.stack? id = state.stack? id
  /-- The outcome depends on the range and on the printed text only. -/
  outcome : ∀ caps state other, State.Agrees (· ∈ range) state other →
    (instruction.eval caps other).1 = (instruction.eval caps state).1
  /-- So does what it leaves there. -/
  agrees : ∀ caps state other, State.Agrees (· ∈ range) state other →
    State.Agrees (· ∈ range) (instruction.eval caps state).2 (instruction.eval caps other).2

variable {instruction : Instruction}

/-- Whether an instruction is `ready` depends on its `inputs`. -/
theorem ready_agrees {p : StackId → Prop} {state other : State} (agrees : state.Agrees p other)
    (inputs : ∀ id ∈ instruction.inputs, p id) :
    instruction.ready other = instruction.ready state := by
  rw [Bool.eq_iff_iff, ready, ready, List.all_eq_true, List.all_eq_true]
  refine forall₂_congr fun id hid => ?_
  rw [agrees.depth_eq (inputs id hid)]

/-- An instruction that is `Confined` acts on the stacks that it uses, and on all wider ranges. -/
theorem Confined.actsOn {others range : List StackId} (confined : instruction.Confined others)
    (hrange : ∀ id ∈ others ++ instruction.touched, id ∈ range) : instruction.ActsOn range := by
  have uses (caps : SizeCaps) : (instruction.body caps).Uses (· ∈ range) :=
    (confined caps).mono hrange
  have hinputs : ∀ id ∈ instruction.inputs, id ∈ range := fun id hid =>
    hrange id (List.mem_append_right _ (List.mem_append_left _ hid))
  have heval (caps : SizeCaps) {state other : State}
      (agrees : State.Agrees (· ∈ range) state other) :
      (instruction.eval caps other).1 = (instruction.eval caps state).1 ∧
        State.Agrees (· ∈ range) (instruction.eval caps state).2
          (instruction.eval caps other).2 := by
    -- Whether the instruction is ready is a matter of its inputs, which are in the range too.
    rw [eval, eval, ready_agrees agrees hinputs]
    split
    · exact (uses caps).run_agrees agrees
    · exact ⟨rfl, agrees⟩
  refine ⟨fun caps state id hid => ?_, fun caps _ _ h => (heval caps h).1,
    fun caps _ _ h => (heval caps h).2⟩
  refine stack?_eval ((uses caps).mono fun used hused => ?_) state
  rintro rfl
  exact hid hused

/-- **The stacks that an instruction uses without declaring them**, if it is one for the types of a
registry. -/
inductive Overlooks (registry : Registry) (instruction : Instruction) : List StackId → Prop where
  /-- It uses what it declares. -/
  | nothing : Overlooks registry instruction []
  /-- It flushes, counts or tests the stack of a type, by one of the `quietVerbs`. -/
  | own {id : StackId} {type : StackType} {verb : String}
      (registered : registry.get? id = some type)
      (quiet : verb ∈ quietVerbs) (named : instruction.name = type.name ++ "_" ++ verb) :
    Overlooks registry instruction [id]
  /-- It is the loop `"exec_while"` that takes a truth value if there is one. -/
  | truth (named : instruction.name = "exec_while") : Overlooks registry instruction [.bool]

end Instruction

namespace InstructionSet

variable {registry : Registry} {instruction : Instruction}

/-- Every instruction for a registry is `Confined` to what it declares and `Overlooks`. -/
theorem exists_overlooks (h : instruction ∈ instructionsFor registry) :
    ∃ others, instruction.Overlooks registry others ∧ instruction.Confined others := by
  rcases instructionsFor_confined instruction h with
    hconfined | ⟨id, type, htype, ⟨verb, hverb, hname⟩, hconfined⟩ | ⟨hname, -, hconfined⟩
  · exact ⟨[], .nothing, hconfined⟩
  · exact ⟨[id], .own htype hverb hname, hconfined⟩
  · exact ⟨[.bool], .truth hname, hconfined⟩

/-- **What the core instructions act on**: the stacks that they declare and those that they overlook
(`Overlooks`), which are none, the stack that the instruction flushes, counts or tests, or that of
truth values for one loop. So an instruction that is left when a set is cut down to some stacks
(`restrict`) acts on these and on what it overlooks. -/
theorem core_actsOn (registry : Registry) (instruction : Instruction)
    (h : instruction ∈ (core registry).instructions) :
    ∃ others, instruction.Overlooks registry others ∧
      instruction.ActsOn (others ++ instruction.touched) ∧
      ∀ names, instruction ∈ ((core registry).restrict registry names).instructions →
        instruction.ActsOn (others ++ names.filterMap registry.find?) := by
  obtain ⟨others, hothers, hconfined⟩ := exists_overlooks (mem_core h).1
  refine ⟨others, hothers, hconfined.actsOn fun _ hid => hid, fun names hkept => ?_⟩
  refine hconfined.actsOn fun id hid => ?_
  rcases List.mem_append.mp hid with hoverlooked | htouched
  · exact List.mem_append_left _ hoverlooked
  · exact List.mem_append_right _ ((mem_restrict.mp hkept).2 id htouched)

/-- The last instruction of a name in `instructionsFor registry` is in the core set, if its stacks
are registered. -/
theorem exists_of_any (registry : Registry) (name : String) (p : Instruction → Bool)
    (h : ((instructionsFor registry).reverse.find? fun other => other.name == name).any
      (fun instruction => instruction.touched.all registry.contains && p instruction) = true) :
    ∃ instruction ∈ (core registry).instructions, instruction.name = name ∧
      p instruction = true := by
  obtain ⟨instruction, hlast, hboth⟩ := (Option.any_eq_true _ _).mp h
  obtain ⟨hregistered, hp⟩ := Bool.and_eq_true_iff.mp hboth
  have hfound := get?_core hlast hregistered
  exact ⟨instruction, List.mem_of_find?_eq_some hfound, name_of_get? hfound, hp⟩

/-- Flushing the stack of a type that was added later acts on that stack, which it does not
declare. -/
theorem core_actsOn_oddFlush :
    ∃ instruction ∈ (core oddRegistry).instructions, instruction.name = "odd_flush" ∧
      instruction.touched = [] ∧
      ∃ others, instruction.Overlooks oddRegistry others ∧
        instruction.ActsOn (others ++ instruction.touched) ∧
        ∀ names, instruction ∈ ((core oddRegistry).restrict oddRegistry names).instructions →
          instruction.ActsOn (others ++ names.filterMap oddRegistry.find?) := by
  obtain ⟨instruction, hmem, hname, htouched⟩ := exists_of_any oddRegistry "odd_flush"
    (fun instruction => instruction.touched == []) (by decide +kernel)
  exact ⟨instruction, hmem, hname, eq_of_beq htouched, core_actsOn oddRegistry instruction hmem⟩

/-! ## Instructions that escape a restriction -/

/-- A state with one truth value and one pending atom. -/
def truthState : State :=
  ((State.ofRegistry .core).setStack .exec [.code .closer]).setStack .bool [.bool true]

/-- Whether an instruction takes the truth value away. -/
def clearsTruth (instruction : Instruction) : Bool :=
  ((instruction.eval {} truthState).2.stack? .bool).any List.isEmpty

/-- An instruction that `clearsTruth` does not act on a range without truth values. -/
theorem not_actsOn_of_clearsTruth {range : List StackId} (hrange : StackId.bool ∉ range)
    (hclears : clearsTruth instruction = true) : ¬instruction.ActsOn range := by
  intro actsOn
  have hsame : (instruction.eval {} truthState).2.stack? .bool = some [.bool true] :=
    actsOn.unchanged {} truthState .bool hrange
  rw [clearsTruth, hsame] at hclears
  cases hclears

/-- **Declarations are not complete**: `"bool_flush"` is left when the core set is cut down to
integers, and `"exec_while"` when it is cut down to pending work. Both change the stack of truth
values, which they do not declare. -/
theorem core_not_actsOn_touched :
    (∃ instruction ∈ ((core .core).restrict .core ["int"]).instructions,
      instruction.name = "bool_flush" ∧ instruction.touched = [] ∧
        ¬instruction.ActsOn instruction.touched ∧ ¬instruction.ActsOn [.int]) ∧
    ∃ instruction ∈ ((core .core).restrict .core ["exec"]).instructions,
      instruction.name = "exec_while" ∧ instruction.touched = [.exec, .exec] ∧
        ¬instruction.ActsOn instruction.touched := by
  constructor
  -- Flushing declares nothing, so that every restriction keeps it.
  · obtain ⟨instruction, hmem, hname, hboth⟩ := exists_of_any .core "bool_flush"
      (fun instruction => instruction.touched == [] && clearsTruth instruction) (by decide +kernel)
    obtain ⟨htouched, hclears⟩ := Bool.and_eq_true_iff.mp hboth
    have hnothing : instruction.touched = [] := eq_of_beq htouched
    have hkept : instruction ∈ ((core .core).restrict .core ["int"]).instructions := by
      refine mem_restrict.mpr ⟨hmem, ?_⟩
      rw [hnothing]
      exact List.forall_mem_nil _
    refine ⟨instruction, hkept, hname, hnothing, not_actsOn_of_clearsTruth ?_ hclears,
      not_actsOn_of_clearsTruth (by decide) hclears⟩
    rw [hnothing]
    exact List.not_mem_nil
  -- The loop declares the pending work only, and takes a truth value if there is one.
  · obtain ⟨instruction, hmem, hname, hboth⟩ := exists_of_any .core "exec_while"
      (fun instruction => instruction.touched == [.exec, .exec] && clearsTruth instruction)
      (by decide +kernel)
    obtain ⟨htouched, hclears⟩ := Bool.and_eq_true_iff.mp hboth
    have hpending : instruction.touched = [.exec, .exec] := eq_of_beq htouched
    have hkept : instruction ∈ ((core .core).restrict .core ["exec"]).instructions := by
      refine mem_restrict.mpr ⟨hmem, ?_⟩
      rw [hpending]
      decide
    refine ⟨instruction, hkept, hname, hpending, not_actsOn_of_clearsTruth ?_ hclears⟩
    rw [hpending]
    decide

end InstructionSet

end PushMachine
