import PushMachine.Proofs.RunLimits

/-! # The dispatches of a run

A run takes one pending atom after another and performs it. `Library.dispatches` lists the atoms
that are taken, each with the state in which it is performed. A run takes as many as its clock
grants (`Clock.grants`) and counts them (`Library.proceed_steps`), only the last of them can stop it
(`Library.stop_of_dispatches`), and the dispatches of the first steps come first
(`Library.Steps.dispatches_add`).

What a call does is said once, by `Library.Calls`, and all that other atoms do is pushing
(`Library.perform_pushes`). -/

namespace PushMachine

/-- A script that succeeds `Did` its first operation and went on with the result. -/
theorem Script.did_of_run {α : Type} {state after : State} {op : Op} {next : op.Result → Script α}
    {value : α} (h : (Script.act op next).run state = (.ok value, after)) :
    ∃ result middle, state.Did op result middle ∧
      (next result).run middle = (.ok value, after) := by
  rcases state.apply_cases op with ⟨result, middle, happly, did⟩ | ⟨fault, happly, -⟩
  · rw [run_act_of_apply happly] at h
    exact ⟨result, middle, did, h⟩
  · rw [run_act_of_failed happly] at h
    cases h

/-! ## What one atom does -/

/-- The states that come about by pushing, one `State.push` after another. -/
inductive State.Pushes (state : State) : State → Prop where
  /-- Nothing is pushed. -/
  | none : Pushes state state
  /-- One more item is pushed. -/
  | push {middle next : State} {id : StackId} {value : Value} (before : Pushes state middle)
      (pushed : middle.push id value = .ok next) : Pushes state next

/-- A push that succeeds did push, in the sense of `Did`. -/
theorem State.did_of_push {state next : State} {id : StackId} {value : Value}
    (h : state.push id value = .ok next) :
    state.Did (.push id value) () next := by
  rcases state.apply_cases (.push id value) with ⟨result, after, happly, did⟩ | ⟨fault, happly, -⟩
  · rw [apply, h] at happly
    cases happly
    exact did
  · rw [apply, h] at happly
    cases happly

namespace Library

variable {library : Library} {limits : Limits} {name : String} {state : State} {atom : Atom}

/-- **What a call does** (`Library.call`): the name is unknown, or the body of its instruction is
tried in a transaction and its changes are kept or taken back. -/
inductive Calls (library : Library) (limits : Limits) (name : String) (state : State) :
    Effect → Prop where
  /-- The library lacks the instruction. -/
  | unknown (missing : library.instructions.get? name = none) :
    Calls library limits name state { state := state, stop := some (.unknownInstruction name) }
  /-- The body succeeded and did not push more than `growthCap`. -/
  | committed {instruction : Instruction} {after : State}
      (found : library.instructions.get? name = some instruction)
      (done : instruction.eval limits.toSizeCaps state.openTransaction = (.ok (), after))
      (fits : after.pushed ≤ limits.growthCap) :
    Calls library limits name state
      { state := after.snapshot, call := some (name, .committed after.pushed) }
  /-- The instruction was not ready or gave up. -/
  | reverted {instruction : Instruction} {after : State}
      (found : library.instructions.get? name = some instruction)
      (failed : instruction.eval limits.toSizeCaps state.openTransaction =
        (.error .revert, after)) :
    Calls library limits name state
      { state := after.rollback, call := some (name, .reverted) }
  /-- The instruction pushed too much or did not fit the stacks. -/
  | terminated {instruction : Instruction} {result : Except Fault Unit} {after : State}
      (found : library.instructions.get? name = some instruction)
      (tried : instruction.eval limits.toSizeCaps state.openTransaction = (result, after))
      (reason : StopReason) :
    Calls library limits name state
      { state := after.rollback, call := some (name, .terminated), stop := some reason }

/-- A call does nothing else than what `Calls` lists. -/
theorem calls (library : Library) (limits : Limits) (name : String) (state : State) :
    library.Calls limits name state (library.call limits name state) := by
  rw [call]
  cases hfound : library.instructions.get? name with
  | none => exact .unknown hfound
  | some instruction =>
    rcases heval : instruction.eval limits.toSizeCaps state.openTransaction with
      ⟨fault | done, after⟩
    · simp only [heval]
      cases fault with
      | revert => exact .reverted hfound heval
      | typeError fault => exact .terminated hfound heval _
      | outOfBounds => exact .terminated hfound heval _
    -- A call that was done is still taken back if it grew beyond the limit.
    · simp only [heval]
      split
      next => exact .terminated hfound heval _
      next hfits => exact .committed hfound heval (Nat.le_of_not_lt hfits)

/-- The result of an operation that pushes. -/
theorem ofOperation_pushes {result : Except TypeFault State}
    (pushes : ∀ next, result = .ok next → state.Pushes next) :
    (Effect.ofOperation state result).call = none ∧
      state.Pushes (Effect.ofOperation state result).state := by
  cases result with
  | ok next => exact ⟨rfl, pushes next rfl⟩
  | error fault => exact ⟨rfl, .none⟩

/-- Making the parts of a block pending (`splice`) is pushing them, from the last to the first. -/
theorem splice_pushes {body : Block} {next : State} (h : splice body state = .ok next) :
    state.Pushes next := by
  induction body generalizing next with
  | nil =>
    cases h
    exact .none
  | cons e rest ih =>
    -- The parts are pushed from the last one on.
    rw [splice, List.foldrM_cons, ← splice] at h
    cases hrest : splice rest state with
    | error fault =>
      rw [hrest] at h
      cases h
    | ok middle =>
      rw [hrest] at h
      exact .push (ih hrest) h

/-- **An atom that calls nothing only pushes**: the states before and after `perform` are related by
`Pushes`. -/
theorem perform_pushes (library : Library) (limits : Limits) (state : State)
    (calls : atom.called? = none) :
    (library.perform limits state atom).call = none ∧
      state.Pushes (library.perform limits state atom).state := by
  have hpush {id : StackId} {value : Value} (next : State)
      (pushed : state.push id value = .ok next) : state.Pushes next := .push .none pushed
  -- Apart from a block, nothing pushes more than one item.
  cases atom with
  | closer => exact ⟨rfl, .none⟩
  | expr e =>
    cases e with
    | literal value on =>
      rw [perform, placeLiteral]
      split
      · exact ⟨rfl, .none⟩
      · split
        · exact ofOperation_pushes hpush
        · exact ⟨rfl, .none⟩
    | input index =>
      rw [perform, fetchInput]
      split
      · exact ⟨rfl, .none⟩
      · exact ofOperation_pushes hpush
      · split
        · exact ofOperation_pushes hpush
        · exact ⟨rfl, .none⟩
    | instr name groups => cases calls
    | deferred name => cases calls
    | block body => exact ofOperation_pushes fun _ => splice_pushes

end Library

/-! ## The atoms that a run takes -/

/-- An atom that was taken from the pending work, and the state in which it is performed. -/
structure Dispatch where
  /-- The state, without the atom. -/
  state : State
  /-- The atom. -/
  atom : Atom

namespace Dispatch

/-- What `Library.perform` makes of the atom. -/
def effect (library : Library) (limits : Limits) (dispatch : Dispatch) : Effect :=
  library.perform limits dispatch.state dispatch.atom

/-- How the instruction ended that the atom called, or `none` if it called none. -/
def outcome? (library : Library) (limits : Limits) (dispatch : Dispatch) : Option Outcome :=
  (dispatch.effect library limits).call.map Prod.snd

/-- What becomes of an atom that calls an instruction is what `Calls` says. -/
theorem calls {dispatch : Dispatch} {name : String} (library : Library) (limits : Limits)
    (h : dispatch.atom.called? = some name) :
    library.Calls limits name dispatch.state (dispatch.effect library limits) := by
  rw [effect, Library.perform_of_called h]
  exact library.calls limits name dispatch.state

end Dispatch

namespace Library

/-- **The dispatches of a run** of at most `remaining` steps, with the time for them. -/
def dispatches (library : Library) (limits : Limits) : (remaining : Nat) → State → List Dispatch
  | 0, _ => []
  | remaining + 1, state =>
    match (Script.popAtom .exec).run state with
    | (.error _, _) => []
    | (.ok atom, popped) =>
      let result := library.perform limits popped atom
      ⟨popped, atom⟩ ::
        if result.stop.isSome then [] else library.dispatches limits remaining result.state

section Turns

variable {library : Library} {limits : Limits} {remaining : Nat} {state popped : State}
  {atom : Atom}

/-- Nothing is taken if the pending work is no code. -/
theorem dispatches_of_failed {fault : Fault} {after : State}
    (failed : (Script.popAtom .exec).run state = (.error fault, after)) :
    library.dispatches limits remaining state = [] := by
  cases remaining with
  | zero => rfl
  | succ remaining => rw [dispatches, failed]

/-- Nothing is taken if no work is pending. -/
theorem dispatches_of_idle (empty : state.depth .exec = 0) :
    library.dispatches limits remaining state = [] := by
  rcases state.apply_cases (.pop .exec) with ⟨result, after, happly, did⟩ | ⟨fault, happly, -⟩
  · cases did with
    | pop found =>
      rw [State.depth, found] at empty
      cases empty
  · exact dispatches_of_failed (Script.run_act_of_failed happly)

/-- An atom with a `stop` is the last of the dispatches. -/
theorem dispatches_of_stopped {reason : StopReason}
    (taken : (Script.popAtom .exec).run state = (.ok atom, popped))
    (stops : (library.perform limits popped atom).stop = some reason) :
    library.dispatches limits (remaining + 1) state = [⟨popped, atom⟩] := by
  rw [dispatches, taken]
  simp only [stops, Option.isSome_some, if_true]

/-- After any other atom the run goes on. -/
theorem dispatches_of_going
    (taken : (Script.popAtom .exec).run state = (.ok atom, popped))
    (goes : (library.perform limits popped atom).stop = none) :
    library.dispatches limits (remaining + 1) state =
      ⟨popped, atom⟩ ::
        library.dispatches limits remaining (library.perform limits popped atom).state := by
  rw [dispatches, taken]
  simp only [goes, Option.isSome_none, Bool.false_eq_true, if_false]

end Turns

end Library

/-! ## Dispatches and steps -/

namespace Clock

variable {clock : Clock} {limits : Limits}

/-- **The steps that a clock grants** out of `remaining` further ones, when so many are taken. -/
def grants (clock : Clock) (limits : Limits) : (remaining steps : Nat) → Nat
  | 0, _ => 0
  | remaining + 1, steps =>
    if clock.isSpent limits steps then 0 else clock.grants limits remaining (steps + 1) + 1

/-- A clock `grants` nothing when the time is up. -/
theorem grants_of_spent {steps : Nat} (spent : clock.isSpent limits steps = true)
    (remaining : Nat) : clock.grants limits (remaining + 1) steps = 0 := by
  rw [grants, if_pos spent]

/-- Before that it grants a step, and goes on. -/
theorem grants_of_unspent {steps : Nat} (unspent : clock.isSpent limits steps = false)
    (remaining : Nat) :
    clock.grants limits (remaining + 1) steps = clock.grants limits remaining (steps + 1) + 1 := by
  rw [grants, unspent]
  rfl

/-- A clock `grants` all steps for which it lasts. -/
theorem Lasts.le_grants {n remaining steps : Nat} (lasts : clock.Lasts limits steps n)
    (le : n ≤ remaining) : n ≤ clock.grants limits remaining steps := by
  induction remaining generalizing n steps with
  | zero => exact le
  | succ remaining ih =>
    cases n with
    | zero => exact Nat.zero_le _
    | succ n =>
      rw [grants_of_unspent lasts.now]
      exact Nat.succ_le_succ (ih lasts.next (Nat.le_of_succ_le_succ le))

end Clock

namespace Library

section Runs

variable {library : Library} {limits : Limits} {remaining n : Nat} {state last : State}

/-- **A run counts its dispatches**: the `steps` of `proceed` are as many as the clock grants
dispatches. -/
theorem proceed_steps {σ : Type} (library : Library) (limits : Limits) (clock : Clock)
    (tracer : Tracer σ) (remaining steps : Nat) (state : State) (data : σ) :
    (library.proceed limits clock tracer remaining steps state data).steps =
      steps + (library.dispatches limits (clock.grants limits remaining steps) state).length := by
  induction remaining generalizing steps state data with
  | zero =>
    by_cases empty : state.depth .exec = 0
    · rw [proceed_of_idle empty]
      rfl
    · rw [proceed_zero empty]
      rfl
  | succ remaining ih =>
    -- Both sides make the same tests in the same order, so that one turn decides both.
    cases library.turn limits clock steps state with
    | idle empty =>
      rw [proceed_of_idle empty, dispatches_of_idle empty]
      rfl
    | spent pending spent =>
      rw [proceed_of_spent pending spent, Clock.grants_of_spent spent]
      rfl
    | unpending pending unspent failed =>
      rw [proceed_of_unpending pending unspent failed, dispatches_of_failed failed]
      rfl
    | stopped pending unspent taken stops =>
      rw [proceed_of_stopped pending unspent taken stops, Clock.grants_of_unspent unspent,
        dispatches_of_stopped taken stops]
      rfl
    | going pending unspent taken goes =>
      rw [proceed_of_going pending unspent taken goes, Clock.grants_of_unspent unspent,
        dispatches_of_going taken goes, ih, List.length_cons, Nat.add_assoc, Nat.add_comm 1]

/-- **Only the last dispatch can stop a run**, and `proceed` ends for its reason. -/
theorem stop_of_dispatches {i : Nat} {dispatch : Dispatch} {reason : StopReason}
    (h : (library.dispatches limits remaining state)[i]? = some dispatch)
    (stops : (dispatch.effect library limits).stop = some reason) :
    (library.dispatches limits remaining state).length = i + 1 := by
  -- No dispatch comes behind one that stops the run, so that it is the last of the list.
  induction remaining generalizing state i with
  | zero => cases h
  | succ remaining ih =>
    rcases taken : (Script.popAtom .exec).run state with ⟨fault | atom, popped⟩
    · rw [dispatches_of_failed taken] at h
      cases h
    cases hstop : (library.perform limits popped atom).stop with
    | some reason' =>
      rw [dispatches_of_stopped taken hstop] at h ⊢
      cases i with
      | zero => rfl
      | succ i => cases h
    | none =>
      rw [dispatches_of_going taken hstop] at h ⊢
      cases i with
      | zero =>
        obtain rfl := Option.some.inj h
        rw [Dispatch.effect, hstop] at stops
        cases stops
      | succ i => rw [List.length_cons, ih h]

/-- **Invariants of a run**: what taking atoms and performing them preserves (`inv`) holds wherever
an atom is performed. -/
theorem invariant_of_mem_dispatches (inv : State → Prop)
    (taking : ∀ {before : State}, inv before → inv ((Script.popAtom .exec).run before).2)
    (performing : ∀ dispatch : Dispatch, inv dispatch.state →
      inv (dispatch.effect library limits).state)
    (holds : inv state) {dispatch : Dispatch}
    (h : dispatch ∈ library.dispatches limits remaining state) : inv dispatch.state := by
  -- Between two dispatches an atom is taken and performed; the invariant has to survive both.
  induction remaining generalizing state with
  | zero => cases h
  | succ remaining ih =>
    have hpopped := taking holds
    rcases taken : (Script.popAtom .exec).run state with ⟨fault | atom, popped⟩
    · rw [dispatches_of_failed taken] at h
      cases h
    rw [taken] at hpopped
    cases hstop : (library.perform limits popped atom).stop with
    | some reason =>
      rw [dispatches_of_stopped taken hstop, List.mem_singleton] at h
      rw [h]
      exact hpopped
    | none =>
      rw [dispatches_of_going taken hstop, List.mem_cons] at h
      rcases h with rfl | h
      · exact hpopped
      · exact ih (performing ⟨popped, atom⟩ hpopped) h

/-- Each step is a dispatch: `n` steps are `n` dispatches. -/
theorem Steps.length_dispatches (steps : library.Steps limits n state last) :
    (library.dispatches limits n state).length = n := by
  induction steps with
  | zero => rfl
  | succ taken goes _ ih => rw [dispatches_of_going taken goes, List.length_cons, ih]

/-- **The dispatches of the first steps** come first, and then those from the state `last` that is
reached. -/
theorem Steps.dispatches_add (steps : library.Steps limits n state last) (more : Nat) :
    library.dispatches limits (n + more) state =
      library.dispatches limits n state ++ library.dispatches limits more last := by
  induction steps with
  | zero => rw [Nat.zero_add, dispatches, List.nil_append]
  | succ taken goes rest ih =>
    rw [Nat.add_right_comm, dispatches_of_going taken goes, dispatches_of_going taken goes, ih,
      List.cons_append]

end Runs

end Library

namespace Machine

/-- **The first dispatches of a program**, at most `n`. -/
def firstDispatches (machine : Machine) (limits : Limits) (code : Block) (inputs : List Value)
    (n : Nat) : List Dispatch :=
  match (machine.load code inputs).2 with
  | .ok start => machine.library.dispatches limits n start
  | .error _ => []

/-- **The dispatches of the run of a program**: as many as the clock grants. -/
def dispatches (machine : Machine) (limits : Limits) (clock : Clock) (code : Block)
    (inputs : List Value) : List Dispatch :=
  machine.firstDispatches limits code inputs (clock.grants limits limits.stepLimit 0)

/-- The first dispatches of a program that was loaded are those from the state `start` of `load`. -/
theorem firstDispatches_of_load {machine : Machine} {code : Block} {inputs : List Value}
    {start : State} (hload : (machine.load code inputs).2 = .ok start) (limits : Limits) (n : Nat) :
    machine.firstDispatches limits code inputs n = machine.library.dispatches limits n start := by
  rw [firstDispatches, hload]

end Machine

end PushMachine
