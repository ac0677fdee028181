import PushMachine.Proofs.Closure
import PushMachine.Proofs.Rollback

/-! # Steps and runs

A run is a number of steps and an ending. `Library.Steps` relates a state to the state after some
steps that did not end the run, `Library.Ends` lists the ways in which a run ends in its last state,
and `Library.proceed_ends` says that every run is of this form.

A discipline that governs a library is kept by every step (`Discipline.Governs.perform`), hence by
every number of steps and by the ending. If it also lets only fitting literals and inputs in, no run
ends with a mismatch. -/

namespace PushMachine

/-- The instruction that is found has the name. -/
theorem InstructionSet.name_of_get? {set : InstructionSet} {name : String}
    {instruction : Instruction} (h : set.get? name = some instruction) :
    instruction.name = name := by
  rw [get?, List.find?_eq_some_iff_append] at h
  exact eq_of_beq h.1

/-- The name of the instruction that an atom calls, be it an `.instr` or `.deferred`. -/
def Atom.called? : Atom → Option String
  | .expr (.instr name _) => some name
  | .expr (.deferred name) => some name
  | _ => none

namespace Library

variable {limits : Limits} {state : State} {atom : Atom}

/-- An atom that calls an instruction performs as `Library.call` does. -/
theorem perform_of_called {library : Library} {name : String} (h : atom.called? = some name) :
    library.perform limits state atom = library.call limits name state := by
  cases atom with
  | closer => cases h
  | expr e =>
    cases e with
    | instr called groups =>
      cases h
      rfl
    | deferred called =>
      cases h
      rfl
    | _ => cases h

/-- What any other atom does depends on the types only. -/
theorem perform_of_not_called (h : atom.called? = none) (registry : Registry)
    (set other : InstructionSet) (wider : Limits) :
    Library.perform ⟨registry, set⟩ limits state atom =
      Library.perform ⟨registry, other⟩ wider state atom := by
  cases atom with
  | closer => rfl
  | expr e =>
    cases e with
    | instr name groups => cases h
    | deferred name => cases h
    | _ => rfl

/-! ## Why an atom stops a run -/

/-- **The reasons for which an atom stops a run**, each with what `Library.perform` found. -/
inductive StopsFor (library : Library) (atom : Atom) : StopReason → Prop where
  /-- The atom calls an instruction that the library lacks. -/
  | unknown {name : String} (called : atom.called? = some name)
      (missing : library.instructions.get? name = none) :
    StopsFor library atom (.unknownInstruction name)
  /-- The instruction pushed more items than `growthCap`. -/
  | growth : StopsFor library atom .growthCapExceeded
  /-- There is no such input. -/
  | input (index : Nat) : StopsFor library atom (.invalidInputIndex index)
  /-- A value or a stack does not fit the types. -/
  | mismatch (mismatch : Mismatch) : StopsFor library atom (.typeError mismatch)
  /-- The instruction addressed an item past the top of a stack. -/
  | outOfBounds : StopsFor library atom .outOfBounds

variable {library : Library} {reason : StopReason}

/-- A call stops the run for one of the reasons of `StopsFor`. -/
theorem stopsFor_of_call {name : String} (called : atom.called? = some name)
    (stops : (library.call limits name state).stop = some reason) :
    library.StopsFor atom reason := by
  rw [call] at stops
  cases hfound : library.instructions.get? name with
  | none =>
    rw [hfound] at stops
    cases stops
    exact .unknown called hfound
  | some instruction =>
    rw [hfound] at stops
    simp only at stops
    -- A call that commits or reverts does not stop the run.
    split at stops
    · split at stops
      · cases stops
        exact .growth
      · cases stops
    · cases stops
    · cases stops
      exact .mismatch _
    · cases stops
      exact .outOfBounds

/-- An operation (`Effect.ofOperation`) stops the run for a mismatch only. -/
theorem stopsFor_of_operation {result : Except TypeFault State}
    (stops : (Effect.ofOperation state result).stop = some reason) :
    library.StopsFor atom reason := by
  cases result with
  | ok next => cases stops
  | error fault =>
    cases stops
    exact .mismatch _

/-- **There is no other reason**: what stops `Library.perform` is listed in `StopsFor`. -/
theorem stopsFor (stops : (library.perform limits state atom).stop = some reason) :
    library.StopsFor atom reason := by
  -- A call stops the run for reasons of its own, another atom for what it pushes or misses.
  cases hcalled : atom.called? with
  | some name =>
    rw [perform_of_called hcalled] at stops
    exact stopsFor_of_call hcalled stops
  | none =>
    cases atom with
    | closer => cases stops
    | expr e =>
      cases e with
      | literal value on =>
        rw [perform, placeLiteral] at stops
        split at stops
        · cases stops
          exact .mismatch _
        · split at stops
          · exact stopsFor_of_operation stops
          · cases stops
            exact .mismatch _
      | input index =>
        rw [perform, fetchInput] at stops
        split at stops
        · cases stops
          exact .input index
        · exact stopsFor_of_operation stops
        · split at stops
          · exact stopsFor_of_operation stops
          · cases stops
            exact .mismatch _
      | instr name groups => cases hcalled
      | deferred name => cases hcalled
      | block body => exact stopsFor_of_operation stops

end Library

/-! ## The time of a run -/

/-- **A clock that lasts**: when so many steps are taken, there is time for `count` more. -/
def Clock.Lasts (clock : Clock) (limits : Limits) (steps count : Nat) : Prop :=
  ∀ taken, steps ≤ taken → taken < steps + count → clock.isSpent limits taken = false

namespace Clock

variable {clock : Clock} {limits : Limits} {steps count : Nat}

/-- The clock `still` lasts for any number of steps. -/
theorem lasts_still (limits : Limits) (steps count : Nat) : still.Lasts limits steps count :=
  fun _ _ _ => decide_eq_false (Nat.not_lt_zero _)

namespace Lasts

/-- There is time for the next step: the clock is not yet `isSpent`. -/
theorem now (lasts : clock.Lasts limits steps (count + 1)) : clock.isSpent limits steps = false :=
  lasts steps (Nat.le_refl steps) (by omega)

/-- There is time for the steps after it. -/
theorem next (lasts : clock.Lasts limits steps (count + 1)) :
    clock.Lasts limits (steps + 1) count :=
  fun taken hfrom hto => lasts taken (by omega) (by omega)

/-- There is time for the next step and those after it. -/
theorem cons (unspent : clock.isSpent limits steps = false)
    (lasts : clock.Lasts limits (steps + 1) count) : clock.Lasts limits steps (count + 1) := by
  intro taken hfrom hto
  rcases hfrom.eq_or_lt with rfl | hlater
  · exact unspent
  · exact lasts taken hlater (by omega)

/-- A clock that lasts for `count` steps lasts for `fewer`. -/
theorem mono {fewer : Nat} (lasts : clock.Lasts limits steps count) (le : fewer ≤ count) :
    clock.Lasts limits steps fewer :=
  fun taken hfrom hto => lasts taken hfrom (by omega)

end Lasts

end Clock

/-! ## The form of a run -/

namespace Library

/-- **Steps of a run**: `Steps n state last` says that `n` steps lead from `state` to `last`, none
of which ended the run. -/
inductive Steps (library : Library) (limits : Limits) : Nat → State → State → Prop where
  /-- No step was taken yet, and the state is the same. -/
  | zero {state : State} : Steps library limits 0 state state
  /-- A pending atom was taken and performed, and the run went on. -/
  | succ {n : Nat} {state popped last : State} {atom : Atom}
      (taken : (Script.popAtom .exec).run state = (.ok atom, popped))
      (goes : (library.perform limits popped atom).stop = none)
      (rest : Steps library limits n (library.perform limits popped atom).state last) :
    Steps library limits (n + 1) state last

/-- **The ending of a run** after its last full step, in the state `last`: the reason and the final
state. -/
inductive Ends (library : Library) (limits : Limits) (last : State) :
    StopReason → State → Prop where
  /-- No work is pending: `.exec` is empty. -/
  | idle (empty : last.depth .exec = 0) : Ends library limits last .normal last
  /-- The steps are used up. -/
  | exhausted : Ends library limits last .stepLimitExceeded last
  /-- The time is used up. -/
  | late : Ends library limits last .timeLimitExceeded last
  /-- The pending work is no code, so that `popAtom` fails. -/
  | unpending {fault : Fault} {after : State} (pending : last.depth .exec ≠ 0)
      (failed : (Script.popAtom .exec).run last = (.error fault, after)) :
    Ends library limits last (.typeError (.pending fault)) after
  /-- A pending atom was taken and ended the run. -/
  | stopped {atom : Atom} {popped : State} {reason : StopReason}
      (taken : (Script.popAtom .exec).run last = (.ok atom, popped))
      (stops : (library.perform limits popped atom).stop = some reason) :
    Ends library limits last reason (library.perform limits popped atom).state

/-! A run goes in turns. What one turn does is said once, for the facts about runs below. -/

/-- **One turn of a run** that took `steps` steps: no work is pending, or no time is left, or the
work is no code, or it is taken and performed, and that ends the run or not. -/
inductive Turn (library : Library) (limits : Limits) (clock : Clock) (steps : Nat)
    (state : State) : Prop where
  /-- No work is pending. -/
  | idle (empty : state.depth .exec = 0)
  /-- No time is left. -/
  | spent (pending : state.depth .exec ≠ 0) (spent : clock.isSpent limits steps = true)
  /-- The pending work is no code. -/
  | unpending {fault : Fault} {after : State} (pending : state.depth .exec ≠ 0)
      (unspent : clock.isSpent limits steps = false)
      (failed : (Script.popAtom .exec).run state = (.error fault, after))
  /-- A pending atom is taken and ends the run. -/
  | stopped {atom : Atom} {popped : State} {reason : StopReason}
      (pending : state.depth .exec ≠ 0) (unspent : clock.isSpent limits steps = false)
      (taken : (Script.popAtom .exec).run state = (.ok atom, popped))
      (stops : (library.perform limits popped atom).stop = some reason)
  /-- A pending atom is taken, and the run goes on. -/
  | going {atom : Atom} {popped : State} (pending : state.depth .exec ≠ 0)
      (unspent : clock.isSpent limits steps = false)
      (taken : (Script.popAtom .exec).run state = (.ok atom, popped))
      (goes : (library.perform limits popped atom).stop = none)

/-- There is no other turn: every state of a run is of one of the kinds of `Turn`. -/
theorem turn (library : Library) (limits : Limits) (clock : Clock) (steps : Nat) (state : State) :
    library.Turn limits clock steps state := by
  by_cases empty : state.depth .exec = 0
  · exact .idle empty
  cases htime : clock.isSpent limits steps with
  | true => exact .spent empty htime
  | false =>
    rcases htaken : (Script.popAtom .exec).run state with ⟨fault | atom, popped⟩
    · exact .unpending empty htime htaken
    · cases hstop : (library.perform limits popped atom).stop with
      | some reason => exact .stopped empty htime htaken hstop
      | none => exact .going empty htime htaken hstop

section Turns

variable {σ : Type} {library : Library} {limits : Limits} {clock : Clock} {tracer : Tracer σ}
  {remaining steps : Nat} {state popped : State} {atom : Atom} {data : σ}

/-- Without pending work the run is over, with the reason `.normal`. -/
theorem proceed_of_idle (empty : state.depth .exec = 0) :
    library.proceed limits clock tracer remaining steps state data =
      ⟨.normal, steps, state, data⟩ := by
  rw [proceed.eq_def]
  exact if_pos empty

/-- With pending work and no steps left the run is over, with `.stepLimitExceeded`. -/
theorem proceed_zero (pending : state.depth .exec ≠ 0) :
    library.proceed limits clock tracer 0 steps state data =
      ⟨.stepLimitExceeded, steps, state, data⟩ := by
  rw [proceed]
  exact if_neg pending

/-- With pending work and no time left the run is over, with `.timeLimitExceeded`. -/
theorem proceed_of_spent (pending : state.depth .exec ≠ 0)
    (spent : clock.isSpent limits steps = true) :
    library.proceed limits clock tracer (remaining + 1) steps state data =
      ⟨.timeLimitExceeded, steps, state, data⟩ := by
  rw [proceed, if_neg pending, if_pos spent]

/-- The turn in which the pending work is no code ends the run with `.pending fault`. -/
theorem proceed_of_unpending {fault : Fault} {after : State} (pending : state.depth .exec ≠ 0)
    (unspent : clock.isSpent limits steps = false)
    (failed : (Script.popAtom .exec).run state = (.error fault, after)) :
    library.proceed limits clock tracer (remaining + 1) steps state data =
      ⟨.typeError (.pending fault), steps, after, data⟩ := by
  rw [proceed, if_neg pending, if_neg (Bool.not_eq_true _ ▸ unspent), failed]

/-- The turn whose atom has a `stop` ends the run. -/
theorem proceed_of_stopped {reason : StopReason} (pending : state.depth .exec ≠ 0)
    (unspent : clock.isSpent limits steps = false)
    (taken : (Script.popAtom .exec).run state = (.ok atom, popped))
    (stops : (library.perform limits popped atom).stop = some reason) :
    library.proceed limits clock tracer (remaining + 1) steps state data =
      ⟨reason, steps + 1, (library.perform limits popped atom).state,
        tracer.emitCall (steps + 1) (library.perform limits popped atom).call
          (tracer.emit (.step (steps + 1) atom) data)⟩ := by
  rw [proceed, if_neg pending, if_neg (Bool.not_eq_true _ ▸ unspent), taken]
  simp only [stops]

/-- The turn after which the run goes on, with one step less to take: `proceed` from the state after
it. -/
theorem proceed_of_going (pending : state.depth .exec ≠ 0)
    (unspent : clock.isSpent limits steps = false)
    (taken : (Script.popAtom .exec).run state = (.ok atom, popped))
    (goes : (library.perform limits popped atom).stop = none) :
    library.proceed limits clock tracer (remaining + 1) steps state data =
      library.proceed limits clock tracer remaining (steps + 1)
        (library.perform limits popped atom).state
        (tracer.emitCall (steps + 1) (library.perform limits popped atom).call
          (tracer.emit (.step (steps + 1) atom) data)) := by
  rw [proceed, if_neg pending, if_neg (Bool.not_eq_true _ ▸ unspent), taken]
  simp only [goes]

end Turns

/-- **Every run has this form**: some `Steps`, not more than allowed, and an ending (`Ends`). -/
theorem proceed_ends {σ : Type} (library : Library) (limits : Limits) (clock : Clock)
    (tracer : Tracer σ) (remaining steps : Nat) (state : State) (data : σ) :
    let ending := library.proceed limits clock tracer remaining steps state data
    ∃ n last, n ≤ remaining ∧ library.Steps limits n state last ∧
      library.Ends limits last ending.reason ending.state := by
  -- By induction on the steps that are left; the tracer's data plays no part.
  induction remaining generalizing steps state data with
  | zero =>
    refine ⟨0, state, Nat.le_refl 0, .zero, ?_⟩
    by_cases empty : state.depth .exec = 0
    · rw [proceed_of_idle empty]
      exact .idle empty
    · rw [proceed_zero empty]
      exact .exhausted
  | succ remaining ih =>
    cases library.turn limits clock steps state with
    | idle empty =>
      rw [proceed_of_idle empty]
      exact ⟨0, state, Nat.zero_le _, .zero, .idle empty⟩
    | spent pending spent =>
      rw [proceed_of_spent pending spent]
      exact ⟨0, state, Nat.zero_le _, .zero, .late⟩
    | unpending pending unspent failed =>
      rw [proceed_of_unpending pending unspent failed]
      exact ⟨0, state, Nat.zero_le _, .zero, .unpending pending failed⟩
    | stopped pending unspent taken stops =>
      rw [proceed_of_stopped pending unspent taken stops]
      exact ⟨0, state, Nat.zero_le _, .zero, .stopped taken stops⟩
    | going pending unspent taken goes =>
      rw [proceed_of_going pending unspent taken goes]
      obtain ⟨n, last, hle, hsteps, hends⟩ := ih (steps + 1) _ _
      exact ⟨n + 1, last, Nat.succ_le_succ hle, .succ taken goes hsteps, hends⟩

end Library

/-- A state that the run of a program reaches after `n` steps, if it may take as many and has the
time for them. -/
def Machine.Reaches (machine : Machine) (limits : Limits) (code : Block) (inputs : List Value)
    (n : Nat) (state : State) : Prop :=
  ∃ start, (machine.load code inputs).2 = .ok start ∧ machine.library.Steps limits n start state

/-! ## Computing steps

What is reached with a few instructions only is reached wherever these instructions are found. With
a few instructions it is computed quickly. -/

/-- The state after some steps, or `none` if one of them ends the run. This is `Steps` as a
function. -/
def Library.after? (library : Library) (limits : Limits) : Nat → State → Option State
  | 0, state => some state
  | n + 1, state =>
    match (Script.popAtom .exec).run state with
    | (.error _, _) => none
    | (.ok atom, popped) =>
      if (library.perform limits popped atom).stop.isNone then
        library.after? limits n (library.perform limits popped atom).state
      else none

/-- The state that the run of a program reaches after `n` steps, or `none` if one of them ends the
run. -/
def Machine.after? (machine : Machine) (limits : Limits) (code : Block) (inputs : List Value)
    (n : Nat) : Option State :=
  match (machine.load code inputs).2 with
  | .ok start => machine.library.after? limits n start
  | .error _ => none

section Computing

variable {limits : Limits} {n : Nat} {state last : State} {registry : Registry}
  {part whole : InstructionSet}

namespace Library

/-- A state computed by `after?` is reached in as many `Steps`. -/
theorem steps_of_after? {library : Library} (h : library.after? limits n state = some last) :
    library.Steps limits n state last := by
  induction n generalizing state with
  | zero =>
    cases h
    exact .zero
  | succ n ih =>
    rw [after?] at h
    rcases htaken : (Script.popAtom .exec).run state with ⟨fault | atom, popped⟩
    · rw [htaken] at h
      cases h
    · rw [htaken] at h
      simp only at h
      split at h
      next hgoes => exact .succ htaken (Option.isNone_iff_eq_none.mp hgoes) (ih h)
      next => cases h

/-- An atom that does not end the run does the same where the set of instructions is `whole` and not
only a `part`. -/
theorem perform_of_part
    (more : ∀ instruction ∈ part.instructions, whole.get? instruction.name = some instruction)
    {atom : Atom} (goes : (Library.perform ⟨registry, part⟩ limits state atom).stop = none) :
    Library.perform ⟨registry, whole⟩ limits state atom =
      Library.perform ⟨registry, part⟩ limits state atom := by
  cases hcalled : atom.called? with
  | none => exact perform_of_not_called hcalled registry whole part limits
  | some name =>
    rw [perform_of_called hcalled, call] at goes
    rw [perform_of_called hcalled, perform_of_called hcalled, call, call]
    -- A name that the part lacks would have stopped the run.
    cases hfound : part.get? name with
    | none =>
      rw [hfound] at goes
      cases goes
    | some instruction =>
      have hwhole := more instruction (List.mem_of_find?_eq_some hfound)
      rw [InstructionSet.name_of_get? hfound] at hwhole
      rw [hwhole]

/-- Steps with a `part` of the instructions are steps with the `whole` set. -/
theorem Steps.of_part
    (more : ∀ instruction ∈ part.instructions, whole.get? instruction.name = some instruction)
    (steps : Library.Steps ⟨registry, part⟩ limits n state last) :
    Library.Steps ⟨registry, whole⟩ limits n state last := by
  induction steps with
  | zero => exact .zero
  | succ taken goes _ ih =>
    have hsame := perform_of_part more goes
    exact .succ taken (hsame ▸ goes) (hsame ▸ ih)

end Library

/-- **A state that is computed** by `after?` with a part of the instructions is reached with all. -/
theorem Machine.reaches_of_part
    (more : ∀ instruction ∈ part.instructions, whole.get? instruction.name = some instruction)
    {code : Block} {inputs : List Value}
    (h : Machine.after? ⟨⟨registry, part⟩, state⟩ limits code inputs n = some last) :
    Machine.Reaches ⟨⟨registry, whole⟩, state⟩ limits code inputs n last := by
  rw [after?] at h
  cases hload : (Machine.load ⟨⟨registry, part⟩, state⟩ code inputs).2 with
  | error fault =>
    rw [hload] at h
    cases h
  | ok start =>
    rw [hload] at h
    exact ⟨start, hload, (Library.steps_of_after? h).of_part more⟩

end Computing

/-! ## Disciplines for whole runs -/

/-- **A discipline that governs a library**: the instructions keep it, and what `Library.perform`
puts onto the stacks is allowed there. -/
structure Discipline.Governs (discipline : Discipline) (library : Library) (caps : SizeCaps)
    (inputs : List Value) : Prop where
  /-- The discipline is closed. -/
  closed : discipline.Closed caps
  /-- There is a stack for pending work. -/
  exec : discipline.present .exec
  /-- The instructions keep the discipline (`Script.Keeps`). -/
  keeps : ∀ instruction ∈ library.instructions.instructions,
    (instruction.body caps).Keeps discipline
  /-- A literal that the registry takes goes to a stack where it is allowed (`Allows`). -/
  literal : ∀ {value id type}, library.registry.get? id = some type → type.accepts value = true →
    discipline.sound (.code (.expr (.literal value id))) →
    discipline.present id ∧ discipline.Allows id value
  /-- Code among the inputs is sound. -/
  codeInput : ∀ atom, Value.code atom ∈ inputs → discipline.sound (.code atom)
  /-- The literals of the other inputs are sound. -/
  literalInput : ∀ value ∈ inputs, ∀ e, library.registry.literal value = .ok e →
    discipline.sound (.code (.expr e))

/-- A discipline under which nothing misfits: the types accept `sound` literals, and every input is
code or has a literal. -/
structure Discipline.Strict (discipline : Discipline) (library : Library) (inputs : List Value) :
    Prop where
  /-- The type of a sound literal's stack accepts it. -/
  literal : ∀ {value id}, discipline.sound (.code (.expr (.literal value id))) →
    ∃ type, library.registry.get? id = some type ∧ type.accepts value = true
  /-- Every input is code or has a literal. -/
  input : ∀ value ∈ inputs,
    (∃ atom, value = .code atom) ∨ ∃ e, library.registry.literal value = .ok e

/-- A state of a run under a discipline, with the given `inputs`. -/
structure State.Governed (discipline : Discipline) (inputs : List Value) (state : State) :
    Prop where
  /-- The stacks meet the discipline (`State.Meets`). -/
  meets : state.Meets discipline
  /-- The count of printed characters is right. -/
  counted : state.Counted
  /-- The inputs are those of the run. -/
  inputs_eq : state.inputs = inputs

/-- An effect whose `stop`, if there is one, is not a `.typeError`. -/
def Effect.Fits (effect : Effect) : Prop :=
  ∀ mismatch, effect.stop ≠ some (.typeError mismatch)

variable {discipline : Discipline} {inputs : List Value} {state : State}

namespace State.Governed

/-- Only the slots, the inputs and the printed text matter to `Governed`, so opening and closing
transactions make no difference. -/
theorem of_same {other : State} (governed : state.Governed discipline inputs)
    (slots : other.slots = state.slots) (inputs_eq : other.inputs = state.inputs)
    (stdout : other.stdout = state.stdout) (length : other.stdoutLength = state.stdoutLength) :
    other.Governed discipline inputs := by
  refine ⟨governed.meets.of_stacks fun id => ?_, ?_, inputs_eq.trans governed.inputs_eq⟩
  · rw [State.stack?, State.stack?, slots]
  · rw [State.Counted, length, stdout]
    exact governed.counted

/-- Opening a transaction makes no difference. -/
theorem openTransaction (governed : state.Governed discipline inputs) :
    state.openTransaction.Governed discipline inputs :=
  governed.of_same rfl rfl rfl rfl

/-- A script that `Obeys` the discipline keeps a state governed. -/
theorem run {α : Type} {script : Script α} {post : α → Prop}
    (governed : state.Governed discipline inputs) (obeys : script.Obeys discipline post) :
    (script.run state).2.Governed discipline inputs := by
  refine ⟨(obeys.run governed.meets).1, ?_, ?_⟩
  · exact script.run_invariant State.Counted (fun did => did.counted) governed.counted
  · refine script.run_invariant (fun after => after.inputs = inputs) ?_ governed.inputs_eq
    exact fun did hinputs => did.inputs_eq.trans hinputs

/-- Pushing a value that is allowed on stack `id` succeeds and keeps a state governed. -/
theorem push (governed : state.Governed discipline inputs) {id : StackId} {value : Value}
    (present : discipline.present id) (allowed : discipline.Allows id value) :
    ∃ next, state.push id value = .ok next ∧ next.Governed discipline inputs := by
  obtain ⟨items, found⟩ := Option.isSome_iff_exists.mp ((governed.meets.present id).mp present)
  have did : state.Did (.push id value) () _ := .push found
  refine ⟨_, ?_, (did.meets ⟨present, allowed⟩ governed.meets).1, did.counted governed.counted,
    did.inputs_eq.trans governed.inputs_eq⟩
  simp only [State.push, State.items, found]
  rfl

/-- Pushing an allowed item is an effect that fits (`Effect.Fits`). -/
theorem ofOperation_push (governed : state.Governed discipline inputs) {id : StackId}
    {value : Value} (present : discipline.present id) (allowed : discipline.Allows id value) :
    (Effect.ofOperation state (state.push id value)).state.Governed discipline inputs ∧
      (Effect.ofOperation state (state.push id value)).Fits := by
  obtain ⟨next, hpush, hnext⟩ := governed.push present allowed
  rw [hpush]
  exact ⟨hnext, nofun⟩

/-- Calling an instruction keeps a state governed, if `eval` in a fresh transaction does. A call
that does not commit is taken back. -/
theorem call {library : Library} {limits : Limits} {name : String}
    (governed : state.Governed discipline inputs)
    (eval : ∀ instruction, library.instructions.get? name = some instruction →
      (instruction.eval limits.toSizeCaps state.openTransaction).2.Governed discipline inputs) :
    (library.call limits name state).state.Governed discipline inputs := by
  rcases library.call_state_cases limits name governed.counted with
    hsame | hback | ⟨instruction, after, hfound, heval, -, hafter⟩
  · rw [hsame]
    exact governed
  · rw [hback]
    exact governed.of_same rfl rfl rfl rfl
  · have hgoverned := eval instruction hfound
    rw [heval] at hgoverned
    rw [hafter]
    exact hgoverned.of_same rfl rfl rfl rfl

end State.Governed

namespace Discipline.Governs

variable {library : Library} {limits : Limits} {atom : Atom} {popped : State}

/-! ## One step -/

/-- Pushing sound code onto `.exec` is an effect that fits. -/
theorem ofOperation_exec (governs : discipline.Governs library limits.toSizeCaps inputs)
    (governed : state.Governed discipline inputs) (sound : discipline.sound (.code atom)) :
    (Effect.ofOperation state (state.push .exec (.code atom))).state.Governed discipline inputs ∧
      (Effect.ofOperation state (state.push .exec (.code atom))).Fits :=
  governed.ofOperation_push governs.exec (governs.closed.allows_code (.inl rfl) sound)

/-- Trying an instruction by `eval` in a fresh transaction keeps a state governed and is no
mismatch. -/
theorem eval (governs : discipline.Governs library limits.toSizeCaps inputs)
    (governed : state.Governed discipline inputs) {instruction : Instruction}
    (hmem : instruction ∈ library.instructions.instructions) :
    (instruction.eval limits.toSizeCaps state.openTransaction).2.Governed discipline inputs ∧
      ∀ mismatch, (instruction.eval limits.toSizeCaps state.openTransaction).1 ≠
        .error (.typeError mismatch) := by
  have keeps := governs.keeps instruction hmem
  have hopen := governed.openTransaction
  rw [Instruction.eval]
  split
  · exact ⟨hopen.run keeps, (keeps.run hopen.meets).2.2⟩
  · exact ⟨hopen, fun mismatch hfault => by cases hfault⟩

/-- Calling an instruction. A call that does not commit is taken back. -/
theorem call (governs : discipline.Governs library limits.toSizeCaps inputs)
    (governed : state.Governed discipline inputs) (name : String) :
    (library.call limits name state).state.Governed discipline inputs ∧
      (library.call limits name state).Fits := by
  refine ⟨governed.call fun instruction hfound => ?_, ?_⟩
  · exact (governs.eval governed (List.mem_of_find?_eq_some hfound)).1
  · rw [Library.call]
    cases hfound : library.instructions.get? name with
    | none => exact fun _ hstop => by cases hstop
    | some instruction =>
      have hmatches := (governs.eval governed (List.mem_of_find?_eq_some hfound)).2
      rcases heval : instruction.eval limits.toSizeCaps state.openTransaction with
        ⟨fault | done, after⟩
      · simp only [heval]
        rw [heval] at hmatches
        cases fault with
        | revert => exact fun _ hstop => by cases hstop
        | typeError mismatch => exact absurd rfl (hmatches mismatch)
        | outOfBounds => exact fun _ hstop => by cases hstop
      · simp only [heval]
        split <;> exact fun _ hstop => by cases hstop

/-- Placing a literal keeps a state governed. It misfits only if the registry does not take it,
which is excluded under a `Strict` discipline. -/
theorem placeLiteral (governs : discipline.Governs library limits.toSizeCaps inputs)
    (governed : state.Governed discipline inputs) {value : Value} {on : StackId}
    (sound : discipline.sound (.code (.expr (.literal value on)))) :
    (library.placeLiteral value on state).state.Governed discipline inputs ∧
      (discipline.Strict library inputs → (library.placeLiteral value on state).Fits) := by
  rw [Library.placeLiteral]
  -- Only a strict discipline rules out a literal whose type is missing or refuses it.
  cases htype : library.registry.get? on with
  | none =>
    refine ⟨governed, fun strict => ?_⟩
    obtain ⟨type, hfound, -⟩ := strict.literal sound
    rw [htype] at hfound
    cases hfound
  | some type =>
    simp only
    split
    next haccepts =>
      obtain ⟨present, allowed⟩ := governs.literal htype haccepts sound
      obtain ⟨hnext, hfits⟩ := governed.ofOperation_push present allowed
      exact ⟨hnext, fun _ => hfits⟩
    next hrejects =>
      refine ⟨governed, fun strict => ?_⟩
      obtain ⟨found, hfound, haccepts⟩ := strict.literal sound
      rw [htype] at hfound
      cases hfound
      exact absurd haccepts hrejects

/-- Fetching an input keeps a state governed. It misfits only if it is neither code nor has a
literal, which is excluded under a `Strict` discipline. -/
theorem fetchInput (governs : discipline.Governs library limits.toSizeCaps inputs)
    (governed : state.Governed discipline inputs) (index : Nat) :
    (library.fetchInput index state).state.Governed discipline inputs ∧
      (discipline.Strict library inputs → (library.fetchInput index state).Fits) := by
  rw [Library.fetchInput, governed.inputs_eq]
  split
  next => exact ⟨governed, fun _ => nofun⟩
  next atom hinput =>
    have hsound := governs.codeInput atom (List.mem_of_getElem? hinput)
    obtain ⟨hnext, hfits⟩ := governs.ofOperation_exec governed hsound
    exact ⟨hnext, fun _ => hfits⟩
  next value hvalue hinput =>
    have hmem := List.mem_of_getElem? hinput
    cases hliteral : library.registry.literal value with
    | ok e =>
      have hsound := governs.literalInput value hmem e hliteral
      obtain ⟨hnext, hfits⟩ := governs.ofOperation_exec governed hsound
      exact ⟨hnext, fun _ => hfits⟩
    | error refusal =>
      refine ⟨governed, fun strict => ?_⟩
      rcases strict.input value hmem with ⟨atom, rfl⟩ | ⟨e, he⟩
      · exact absurd rfl (hvalue atom)
      · rw [hliteral] at he
        cases he

/-- Making the parts of a sound block pending (`splice`) succeeds and keeps a state governed. -/
theorem splice (governs : discipline.Governs library limits.toSizeCaps inputs)
    (governed : state.Governed discipline inputs) {body : Block}
    (sound : ∀ e ∈ body, discipline.sound (.code (.expr e))) :
    ∃ next, Library.splice body state = .ok next ∧ next.Governed discipline inputs := by
  induction body with
  | nil => exact ⟨state, rfl, governed⟩
  | cons e rest ih =>
    obtain ⟨he, hrest⟩ := List.forall_mem_cons.mp sound
    -- The parts behind are pushed first, so that the first part ends up on top.
    obtain ⟨middle, hmiddle, hgoverned⟩ := ih hrest
    obtain ⟨next, hpush, hnext⟩ :=
      hgoverned.push governs.exec (governs.closed.allows_code (.inl rfl) he)
    refine ⟨next, ?_, hnext⟩
    rw [Library.splice] at hmiddle ⊢
    rw [List.foldrM_cons, hmiddle]
    exact hpush

/-- **The step**: a sound atom keeps a state governed, and fits under a `Strict` discipline. -/
theorem perform (governs : discipline.Governs library limits.toSizeCaps inputs)
    (governed : state.Governed discipline inputs) (sound : discipline.sound (.code atom)) :
    (library.perform limits state atom).state.Governed discipline inputs ∧
      (discipline.Strict library inputs → (library.perform limits state atom).Fits) := by
  cases atom with
  | closer => exact ⟨governed, fun _ => nofun⟩
  | expr e =>
    cases e with
    | literal value on => exact governs.placeLiteral governed sound
    | input index => exact governs.fetchInput governed index
    | instr name groups =>
      obtain ⟨hnext, hfits⟩ := governs.call governed name
      exact ⟨hnext, fun _ => hfits⟩
    | deferred name =>
      obtain ⟨hnext, hfits⟩ := governs.call governed name
      exact ⟨hnext, fun _ => hfits⟩
    | block body =>
      obtain ⟨next, hsplice, hnext⟩ := governs.splice governed fun e => governs.closed.part sound
      rw [Library.perform, hsplice]
      exact ⟨hnext, fun _ => nofun⟩

/-- Taking a pending atom keeps a state governed, and the atom is `sound`. -/
theorem taken (governs : discipline.Governs library limits.toSizeCaps inputs)
    (governed : state.Governed discipline inputs)
    (h : (Script.popAtom .exec).run state = (.ok atom, popped)) :
    popped.Governed discipline inputs ∧ discipline.sound (.code atom) := by
  have obeys : (Script.popAtom .exec).Obeys discipline fun atom => discipline.sound (.code atom) :=
    governs.closed.popAtom_of_present (.inl rfl) governs.exec fun _ hsound => hsound
  have hpopped := governed.run obeys
  have hsound := (obeys.run governed.meets).2.1 atom
  rw [h] at hpopped hsound
  exact ⟨hpopped, hsound rfl⟩

/-- Pending work can always be taken. -/
theorem exists_taken (governs : discipline.Governs library limits.toSizeCaps inputs)
    (governed : state.Governed discipline inputs) (pending : state.depth .exec ≠ 0) :
    ∃ atom popped, (Script.popAtom .exec).run state = (.ok atom, popped) := by
  obtain ⟨items, found⟩ := Option.isSome_iff_exists.mp (State.isSome_of_depth_ne_zero pending)
  cases items with
  | nil =>
    rw [State.depth, found] at pending
    exact absurd rfl pending
  | cons value rest =>
    have allowed := governed.meets.allowed .exec _ found value List.mem_cons_self
    obtain ⟨atom, rfl⟩ := (governs.closed.code_iff (.inl rfl)).mp allowed.1
    have hpop : state.apply (.pop .exec) = .ok (.code atom,
        (state.setStack .exec rest).note (.popped .exec (.code atom))) := by
      rw [State.apply, State.pop, State.itemsOrFault_of_found found]
      rfl
    exact ⟨atom, _, Script.run_act_of_apply hpop⟩

/-! ## Runs -/

/-- **The run**: every number of `Steps` keeps a state governed. -/
theorem steps (governs : discipline.Governs library limits.toSizeCaps inputs) {n : Nat}
    {last : State} (steps : library.Steps limits n state last)
    (governed : state.Governed discipline inputs) : last.Governed discipline inputs := by
  induction steps with
  | zero => exact governed
  | succ htaken goes rest ih =>
    obtain ⟨hpopped, hsound⟩ := governs.taken governed htaken
    exact ih (governs.perform hpopped hsound).1

/-- The ending of a run keeps a state governed, and under a `Strict` discipline it is no mismatch.
-/
theorem ends (governs : discipline.Governs library limits.toSizeCaps inputs) {last final : State}
    {reason : StopReason} (ends : library.Ends limits last reason final)
    (governed : last.Governed discipline inputs) :
    final.Governed discipline inputs ∧
      (discipline.Strict library inputs → ∀ mismatch, reason ≠ .typeError mismatch) := by
  cases ends with
  | idle empty => exact ⟨governed, fun _ => nofun⟩
  | exhausted => exact ⟨governed, fun _ => nofun⟩
  | late => exact ⟨governed, fun _ => nofun⟩
  | unpending pending failed =>
    -- This never happens: pending work is code and can be taken.
    obtain ⟨atom, popped, htaken⟩ := governs.exists_taken governed pending
    rw [failed] at htaken
    cases htaken
  | stopped htaken stops =>
    obtain ⟨hpopped, hsound⟩ := governs.taken governed htaken
    obtain ⟨hfinal, hfits⟩ := governs.perform hpopped hsound
    refine ⟨hfinal, fun strict mismatch heq => ?_⟩
    rw [heq] at stops
    exact hfits strict mismatch stops

/-- A whole run by `Library.proceed` from a governed state ends in one, and under a `Strict`
discipline not with a mismatch. -/
theorem proceed {σ : Type} (governs : discipline.Governs library limits.toSizeCaps inputs)
    (governed : state.Governed discipline inputs) (clock : Clock) (tracer : Tracer σ)
    (remaining count : Nat) (data : σ) :
    let ending := library.proceed limits clock tracer remaining count state data
    ending.state.Governed discipline inputs ∧
      (discipline.Strict library inputs → ∀ mismatch, ending.reason ≠ .typeError mismatch) := by
  obtain ⟨n, last, -, hsteps, hends⟩ :=
    library.proceed_ends limits clock tracer remaining count state data
  exact governs.ends hends (governs.steps hsteps governed)

/-- A machine with empty stacks that meet the discipline can `load` sound code. -/
theorem load (machine : Machine)
    (governs : discipline.Governs machine.library limits.toSizeCaps inputs)
    (governed : (machine.state.reset.withInputs inputs).Governed discipline inputs) {code : Block}
    (sound : discipline.sound (.code (.expr (.block code)))) :
    ∃ start, machine.load code inputs = (machine.state.reset.withInputs inputs, .ok start) ∧
      start.Governed discipline inputs := by
  obtain ⟨start, hpush, hstart⟩ :=
    governed.push governs.exec (governs.closed.allows_code (.inl rfl) sound)
  refine ⟨start, ?_, hstart⟩
  rw [Machine.load, hpush]

/-- **A program under a discipline**: a machine with empty stacks that meet the discipline runs
sound code through `Governed` states only, and under a `Strict` discipline not into a mismatch. -/
theorem run (machine : Machine)
    (governs : discipline.Governs machine.library limits.toSizeCaps inputs)
    (governed : (machine.state.reset.withInputs inputs).Governed discipline inputs) {code : Block}
    (sound : discipline.sound (.code (.expr (.block code)))) (outputs : List String)
    (clock : Clock) :
    (∀ n state, machine.Reaches limits code inputs n state →
        state.Governed discipline inputs) ∧
      (machine.run code inputs outputs limits clock).2.state.Governed discipline inputs ∧
      (discipline.Strict machine.library inputs → ∀ mismatch,
        (machine.run code inputs outputs limits clock).1.reason ≠ .typeError mismatch) := by
  obtain ⟨start, hload, hstart⟩ := governs.load machine governed sound
  refine ⟨?_, ?_⟩
  · rintro n state ⟨loaded, hloaded, hsteps⟩
    rw [hload] at hloaded
    cases hloaded
    exact governs.steps hsteps hstart
  · rw [Machine.run, Machine.runTraced, hload]
    exact governs.proceed hstart clock .silent limits.stepLimit 0 _

end Discipline.Governs

end PushMachine
