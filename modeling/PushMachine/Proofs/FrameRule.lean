import PushMachine.Proofs.Footprint
import PushMachine.Proofs.StackTyping

/-! # The frame rule

An instruction declares how many items it reads from each stack. If it looks at no others, then the
items underneath make no difference: it does the same with more of them, and leaves them where they
are. The hard case is a state that holds the declared items and nothing else.

A script that follows `Op.Spends`, so that it takes and looks at owned items only, can be run on top
of anything (`Script.run_underlay`). The core instructions spend what they declare
(`Instruction.Frugal`), apart from those that address a depth or count a stack, and the loop that
looks for a truth value (`Instruction.looksPast`). -/

namespace PushMachine

/-! ## Items underneath -/

namespace State

variable {state : State} {id : StackId}

/-- **The state with more items underneath** each of its stacks: `below id` is put at the bottom of
stack `id`. -/
def underlay (state : State) (below : StackId → List Value) : State :=
  { state with slots := state.slots.mapIdx fun index slot => slot.map (· ++ below ⟨index⟩) }

variable (below : StackId → List Value)

/-- The items of stack `id` lie on top of `below id`. -/
theorem stack?_underlay (state : State) (id : StackId) :
    (state.underlay below).stack? id = (state.stack? id).map (· ++ below id) := by
  rw [stack?, underlay, List.getElem?_mapIdx, stack?]
  cases state.slots[id.index]? <;> rfl

/-- A stack that holds `items` holds `items ++ below id` with more underneath. -/
theorem stack?_underlay_of_found {items : List Value} (found : state.stack? id = some items) :
    (state.underlay below).stack? id = some (items ++ below id) := by
  rw [stack?_underlay, found, Option.map_some]

/-- A replaced stack lies on the same items as before: `underlay` commutes with `setStack`. -/
theorem underlay_setStack (state : State) (id : StackId) (items : List Value) :
    (state.setStack id items).underlay below =
      (state.underlay below).setStack id (items ++ below id) := by
  simp only [underlay, setStack, List.mapIdx_set, Option.map_some]

/-- Notes say nothing about the items underneath. -/
theorem underlay_note (state : State) (change : Change) :
    (state.note change).underlay below = (state.underlay below).note change := by
  rw [note, note]
  split
  next hopen => exact (if_pos hopen).symm
  next hclosed => exact (if_neg hclosed).symm

/-- A note changes no number of items. -/
@[simp] theorem depth_note (change : Change) : (state.note change).depth id = state.depth id := by
  rw [depth, depth, stack?_note]

/-- The number of items of a stack that exists. -/
theorem depth_of_found {items : List Value} (found : state.stack? id = some items) :
    state.depth id = items.length := by
  rw [depth, found]
  rfl

/-- A stack is not less deep with more items underneath (`underlay`). -/
theorem depth_le_depth_underlay (state : State) (id : StackId) :
    state.depth id ≤ (state.underlay below).depth id := by
  cases found : state.stack? id with
  | none =>
    rw [depth, found]
    exact Nat.zero_le _
  | some items =>
    have hbelow := stack?_underlay_of_found below found
    rw [depth_of_found found, depth_of_found hbelow, List.length_append]
    exact Nat.le_add_right _ _

/-- A state that holds the items `owned`, given by their stacks, once for every item. -/
def Holds (state : State) (owned : List StackId) : Prop :=
  ∀ id, owned.count id ≤ state.depth id

variable {owned : List StackId}

/-- A stack of which items are `owned` has as many. -/
theorem Holds.found (holds : state.Holds owned) (hpos : 0 < owned.count id) :
    ∃ items, state.stack? id = some items ∧ owned.count id ≤ items.length := by
  have hdepth := holds id
  have hne : state.depth id ≠ 0 := by omega
  obtain ⟨items, found⟩ := Option.isSome_iff_exists.mp (isSome_of_depth_ne_zero hne)
  rw [depth_of_found found] at hdepth
  exact ⟨items, found, hdepth⟩

/-- A note takes no item away. -/
theorem Holds.note (holds : state.Holds owned) (change : Change) :
    (state.note change).Holds owned := by
  intro id
  rw [depth_note]
  exact holds id

/-- The items `rest` are held where stack `id` was replaced, if the new one holds enough of them. -/
theorem Holds.setStack {items new : List Value} {rest : List StackId}
    (holds : state.Holds owned) (found : state.stack? id = some items)
    (others : ∀ other, other ≠ id → rest.count other ≤ owned.count other)
    (enough : rest.count id ≤ new.length) : (state.setStack id new).Holds rest := by
  intro other
  by_cases heq : other = id
  · subst heq
    rw [depth_of_found (stack?_setStack_self found new)]
    exact enough
  · rw [depth_setStack heq]
    exact (others other heq).trans (holds other)

end State

/-! ## Scripts that spend what they own -/

namespace State

variable {state : State} {op : Op} {owned : List StackId}

/-- **The step**: an operation on owned items does the same with more items underneath, and the
items of `op.leaves owned` are there afterwards. -/
theorem Holds.apply (holds : state.Holds owned) (spends : op.Spends owned)
    (below : StackId → List Value) :
    (∃ fault, state.apply op = .error fault ∧ (state.underlay below).apply op = .error fault) ∨
      ∃ result after, state.apply op = .ok (result, after) ∧
        (state.underlay below).apply op = .ok (result, after.underlay below) ∧
        after.Holds (op.leaves owned) := by
  cases op with
  | push id value =>
    cases found : state.stack? id with
    | none =>
      have hmissing : (state.underlay below).stack? id = none := by
        rw [stack?_underlay, found, Option.map_none]
      exact .inl ⟨_, apply_of_missing rfl found, apply_of_missing rfl hmissing⟩
    | some items =>
      have hbelow := stack?_underlay_of_found below found
      refine .inr ⟨(), _, by simp only [State.apply, State.push, State.items, found]; rfl, ?_, ?_⟩
      · simp only [State.apply, State.push, State.items, hbelow, underlay_note]
        show Except.ok _ = Except.ok _
        congr 3
        exact congrArg (fun after : State => { after with pushed := state.pushed + 1 })
          (underlay_setStack below state id (value :: items)).symm
      · have hcount := holds id
        rw [depth_of_found found] at hcount
        have hset : (state.setStack id (value :: items)).Holds (id :: owned) := by
          refine holds.setStack found (fun other hother => ?_) ?_
          · rw [List.count_cons_of_ne hother.symm]
          · rw [List.count_cons_self, List.length_cons]
            exact Nat.succ_le_succ hcount
        refine Holds.note ?_ _
        exact hset
  | pop id =>
    have hpos : 0 < owned.count id := List.count_pos_iff.mpr spends
    obtain ⟨items, found, hcount⟩ := holds.found hpos
    cases items with
    | nil =>
      rw [List.length_nil] at hcount
      exact absurd hpos (Nat.not_lt.mpr hcount)
    | cons value tail =>
      have hbelow : (state.underlay below).stack? id = some (value :: (tail ++ below id)) :=
        stack?_underlay_of_found below found
      refine .inr ⟨value, _,
        by rw [State.apply, State.pop, itemsOrFault_of_found found]; rfl, ?_, ?_⟩
      · rw [State.apply, State.pop, itemsOrFault_of_found hbelow, underlay_note, underlay_setStack]
        rfl
      · refine Holds.note (holds.setStack found (fun other hother => ?_) ?_) _
        · rw [Op.leaves, List.count_erase_of_ne hother]
        · rw [List.length_cons] at hcount
          rw [Op.leaves, List.count_erase_self]
          omega
  | peek id place =>
    have howns : place < owned.count id := spends
    obtain ⟨items, found, hcount⟩ := holds.found (Nat.zero_lt_of_lt howns)
    have hplace : place < items.length := howns.trans_le hcount
    have hitem : items[place]? = some items[place] := List.getElem?_eq_getElem hplace
    have hbelow := stack?_underlay_of_found below found
    refine .inr ⟨items[place], state, State.apply_peek found hitem, State.apply_peek hbelow ?_,
      holds⟩
    rw [List.getElem?_append_left hplace, hitem]
  -- These depend on the whole stack, and no rule for spending allows them.
  | depth id | flush id | yank id place | shove id place value => exact spends.elim
  | print text cap =>
    by_cases hlt : cap < state.stdoutLength + text.length
    · have hfails (other : State) (hsame : other.stdoutLength = state.stdoutLength) :
          other.apply (.print text cap) = .error .revert := by
        rw [State.apply, State.print, hsame, if_pos hlt]
        rfl
      exact .inl ⟨.revert, hfails state rfl, hfails _ rfl⟩
    · have hnote := underlay_note below state (.printed state.stdout.utf8ByteSize)
      refine .inr ⟨(), _, by rw [State.apply, State.print, if_neg hlt]; rfl, ?_, ?_⟩
      · have hbelow : ¬cap < (state.underlay below).stdoutLength + text.length := hlt
        rw [State.apply, State.print, if_neg hbelow]
        show Except.ok _ = Except.ok _
        congr 2
        exact congrArg (fun noted : State => { noted with
          stdout := noted.stdout ++ text, stdoutLength := noted.stdoutLength + text.length })
          hnote.symm
      · exact fun id => (holds.note _) id

end State

/-- **The run**: a script that follows `Op.Spends` does the same with more items underneath. -/
theorem Script.run_underlay {α : Type} {owned : List StackId} {post : α → List StackId → Prop}
    {script : Script α} (spends : script.Follows Op.Spends post owned) {state : State}
    (holds : state.Holds owned) (below : StackId → List Value) :
    script.run (state.underlay below) =
      ((script.run state).1, (script.run state).2.underlay below) := by
  induction script generalizing state owned with
  | done result => rfl
  | fail fault => rfl
  | act op next ih =>
    rw [run, run]
    rcases holds.apply spends.1 below with
      ⟨fault, happly, hbelow⟩ | ⟨result, after, happly, hbelow, hafter⟩
    · rw [happly, hbelow]
    · rw [happly, hbelow]
      exact ih result (spends.2 result) hafter

/-! ## Instructions -/

namespace Instruction

/-- **An instruction that spends what it declares** (`Op.Spends`): it takes and looks at no other
items than those that it declares as inputs or has pushed. -/
def Frugal (instruction : Instruction) : Prop := instruction.Follows Op.Spends

/-- An instruction that is `Plain` spends what it declares. -/
theorem Plain.frugal {instruction : Instruction} (plain : instruction.Plain) : instruction.Frugal :=
  plain.mono fun _ _ h => h.2.1

/-- The printing instruction of a stack spends its item. -/
theorem printing_frugal (id : StackId) (type : String) : (printing id type).Frugal := by
  intro caps
  simp [printing, printTop]

/-- Printing a line break takes no item. -/
theorem printNewline_frugal : printNewline.Frugal :=
  fun _ => ⟨trivial, fun _ => trivial⟩

/-! ### Trying an instruction -/

section Eval

variable {instruction : Instruction} {state : State}

/-- An instruction is ready where the state `Holds` its inputs. -/
theorem holds_of_ready (ready : instruction.ready state = true) :
    state.Holds instruction.inputs := by
  intro id
  by_cases hid : id ∈ instruction.inputs
  · exact of_decide_eq_true (List.all_eq_true.mp ready id hid)
  · rw [List.count_eq_zero_of_not_mem hid]
    exact Nat.zero_le _

/-- It stays ready with more items underneath. -/
theorem ready_underlay (ready : instruction.ready state = true) (below : StackId → List Value) :
    instruction.ready (state.underlay below) = true := by
  refine List.all_eq_true.mpr fun id _ => decide_eq_true ?_
  exact (holds_of_ready ready id).trans (state.depth_le_depth_underlay below id)

/-- **An instruction that spends what it declares** (`Frugal`) does the same with more items
underneath. -/
theorem Frugal.eval_underlay (frugal : instruction.Frugal) (caps : SizeCaps)
    (ready : instruction.ready state = true) (below : StackId → List Value) :
    instruction.eval caps (state.underlay below) =
      ((instruction.eval caps state).1, (instruction.eval caps state).2.underlay below) := by
  rw [eval, eval, if_pos ready, if_pos (ready_underlay ready below)]
  exact Script.run_underlay (frugal caps) (holds_of_ready ready) below

end Eval

/-- Whether an instruction for the types of a registry looks past the items that it declares: by its
name, one with a verb of `depthVerbs`, or the loop `"exec_while"` that looks for a truth value. -/
def looksPast (registry : Registry) (instruction : Instruction) : Bool :=
  (registry.types.any fun (_, type) =>
    depthVerbs.any fun verb => instruction.name == type.name ++ "_" ++ verb) ||
  instruction.name == "exec_while"

end Instruction

namespace InstructionSet

variable {registry : Registry} {instruction : Instruction}

/-- **The instructions for a registry** are `Frugal`, unless they look past what they declare. -/
theorem instructionsFor_frugal :
    ∀ instruction ∈ instructionsFor registry,
      instruction.Frugal ∨ instruction.looksPast registry = true := by
  intro instruction hmem
  -- The instructions that look past what they own are told by their names.
  cases instructionsFor_sorted instruction hmem with
  | plain plain => exact .inl plain.frugal
  | @deep _ id type verb registered addresses named _ =>
    have hany : (registry.types.any fun (_, type) => Instruction.depthVerbs.any fun verb =>
        instruction.name == type.name ++ "_" ++ verb) = true :=
      List.any_eq_true.mpr ⟨(id, type), Registry.mem_types.mpr registered,
        List.any_eq_true.mpr ⟨verb, addresses, beq_iff_eq.mpr named⟩⟩
    refine .inr ?_
    rw [Instruction.looksPast, hany, Bool.true_or]
  | printing _ => exact .inl (Instruction.printing_frugal _ _)
  | printNewline => exact .inl Instruction.printNewline_frugal
  | waiting named _ _ =>
    refine .inr ?_
    rw [Instruction.looksPast, named, beq_self_eq_true, Bool.or_true]

end InstructionSet

/-! ## States that fit the types -/

/-- A state that `Fits` a registry meets its discipline. -/
theorem State.Fits.meets {registry : Registry} {state : State} (fits : state.Fits registry) :
    state.Meets (registry.discipline fun _ => True) where
  present id := (fits.stack_iff id).symm
  allowed id items hitems value hvalue := by
    have hsome : (registry.get? id).isSome := by
      rw [← fits.stack_iff id, hitems, Option.isSome_some]
    obtain ⟨type, htype⟩ := Option.isSome_iff_exists.mp hsome
    exact ⟨⟨type, htype, fits.accepted id items type hitems htype value hvalue⟩,
      value.every_of_forall fun _ => trivial⟩

namespace InstructionSet

variable {registry : Registry} {instruction : Instruction}

/-- On a state that `Fits` the types, a core instruction succeeds or gives up. -/
theorem eval_ok_or_revert (keeps : registry.KeepsCore)
    (h : instruction ∈ (core registry).instructions) (caps : SizeCaps) {state : State}
    (fits : state.Fits registry) :
    (instruction.eval caps state).1 = .ok () ∨
      (instruction.eval caps state).1 = .error .revert := by
  have unrolled := keeps.closed (p := fun _ => True) (fun _ => trivial) (fun _ => trivial)
    (fun _ _ => trivial) caps
  -- No value is of another type than its stack, and no operation goes out of bounds.
  have hmatches := ((core_keeps unrolled (fun _ h => h) instruction h).run fits.meets).2.2
  have hbounded : (((instruction.body caps).run state).1) ≠ .error .outOfBounds := by
    rcases instructionsFor_confined instruction (mem_core h).1 with
      hconfined | ⟨id, type, -, -, hconfined⟩ | ⟨-, -, hconfined⟩ <;>
    exact (hconfined caps).run_ne_outOfBounds state
  rw [Instruction.eval]
  split
  next =>
    cases hrun : ((instruction.body caps).run state).1 with
    | ok done => exact .inl rfl
    | error fault =>
      rw [hrun] at hmatches hbounded
      cases fault with
      | revert => exact .inr rfl
      | typeError mismatch => exact absurd rfl (hmatches mismatch)
      | outOfBounds => exact absurd rfl hbounded
  next => exact .inr rfl

/-- **Declared inputs are exact**: a core instruction that does not address a depth, and is not the
loop that looks for a truth value (`looksPast`), succeeds or gives up on every state that `Fits` the
types and holds the items that it declares; and with any items underneath the stacks (`underlay`) it
ends in the same way and leaves the same state on top of them. Where an item is missing it gives up
and leaves the state as it is, whatever its body. -/
theorem core_eval_underlay (instruction : Instruction)
    (h : instruction ∈ (core .core).instructions)
    (shallow : instruction.looksPast .core = false) (caps : SizeCaps) (state : State)
    (fits : state.Fits .core) (below : StackId → List Value) :
    (instruction.ready state = true →
      ((instruction.eval caps state).1 = .ok () ∨
          (instruction.eval caps state).1 = .error .revert) ∧
        instruction.eval caps (state.underlay below) =
          ((instruction.eval caps state).1, (instruction.eval caps state).2.underlay below)) ∧
      (instruction.ready state = false → ∀ body,
        Instruction.eval { instruction with body } caps state = (.error .revert, state)) := by
  have keeps : Registry.core.KeepsCore := Registry.Evolves.start.keepsCore
  refine ⟨fun ready => ⟨eval_ok_or_revert keeps h caps fits, ?_⟩, fun unready body => ?_⟩
  · rcases instructionsFor_frugal instruction (mem_core h).1 with hfrugal | hdeep
    · exact hfrugal.eval_underlay caps ready below
    · rw [shallow] at hdeep
      cases hdeep
  · have hunready : Instruction.ready { instruction with body } state = false := unready
    rw [Instruction.eval, hunready]
    rfl

/-- The empty state of the core types. -/
def emptyState : State := (State.ofRegistry .core).reset.withInputs []

/-- A vector of three items and two integers, the position and the new item, on top of nothing. -/
def setNthState : State :=
  (emptyState.setStack .vectorInt [.ints [4, 5, 6]]).setStack .int [.int 1, .int 9]

/-- Its values fit their types. -/
theorem fits_setNthState : setNthState.Fits .core := by
  have keeps : Registry.core.KeepsCore := Registry.Evolves.start.keepsCore
  have hempty : emptyState.Governed (Registry.core.discipline fun _ => True) [] :=
    State.governed_ofRegistry .core _ []
  have hvectors : emptyState.stack? .vectorInt = some [] := rfl
  have hints : (emptyState.setStack .vectorInt [.ints [4, 5, 6]]).stack? .int = some [] := rfl
  have hvector : ∀ value ∈ [Value.ints [4, 5, 6]],
      (Registry.core.discipline fun _ => True).Allows .vectorInt value :=
    List.forall_mem_singleton.mpr ⟨⟨Registry.builtinTypes[8], rfl, rfl⟩, trivial⟩
  have hint (n : Int64) : (Registry.core.discipline fun _ => True).Allows .int (.int n) :=
    ⟨⟨Registry.builtinTypes[3], rfl, rfl⟩, trivial⟩
  have hboth : ∀ value ∈ [Value.int 1, .int 9],
      (Registry.core.discipline fun _ => True).Allows .int value :=
    List.forall_mem_cons.mpr ⟨hint 1, List.forall_mem_singleton.mpr (hint 9)⟩
  have hmeets := (hempty.meets.setStack hvectors hvector).setStack hints hboth
  have hgoverned : setNthState.Governed (Registry.core.discipline fun _ => True) [] :=
    ⟨hmeets, rfl, rfl⟩
  exact hgoverned.fits keeps

/-- Setting an item takes both integers where there are no others, and leaves those underneath. -/
theorem core_eval_underlay_setNth :
    ∃ instruction ∈ (core .core).instructions, instruction.name = "vector_int_set_nth" ∧
      instruction.looksPast .core = false ∧ setNthState.Fits .core ∧
      instruction.ready setNthState = true ∧ setNthState.depth .int = 2 ∧
      ∀ below : StackId → List Value,
        (instruction.eval {} (setNthState.underlay below)).1 = .ok () ∧
          (instruction.eval {} (setNthState.underlay below)).2.stack? .int = some (below .int) ∧
          (instruction.eval {} (setNthState.underlay below)).2.stack? .vectorInt =
            some (.ints [4, 9, 6] :: below .vectorInt) := by
  have hfound : (core .core).get? "vector_int_set_nth" =
      some (Instruction.ofVectorVerb Int64 "set_nth" [.vectorInt, .int, .int] [.vectorInt]
        fun _ => Instruction.setItem Int64) := get?_core rfl rfl
  have hmem := List.mem_of_find?_eq_some hfound
  have hshallow : (Instruction.ofVectorVerb Int64 "set_nth" [.vectorInt, .int, .int] [.vectorInt]
      fun _ => Instruction.setItem Int64).looksPast .core = false := by decide +kernel
  refine ⟨_, hmem, rfl, hshallow, fits_setNthState, rfl, rfl, fun below => ?_⟩
  obtain ⟨-, hsame⟩ :=
    (core_eval_underlay _ hmem hshallow {} setNthState fits_setNthState below).1 rfl
  rw [hsame]
  refine ⟨rfl, ?_, ?_⟩
  · rw [State.stack?_underlay]
    rfl
  · rw [State.stack?_underlay]
    rfl

end InstructionSet

end PushMachine
