import PushMachine.Proofs.Dispatches

/-! # Tracing

A tracer watches a run and has no part in it. `Dispatch.events` says which events the dispatches of
a run give rise to, and `Library.proceed_traced` that a run with a tracer is the run without one,
where the tracer is handed these events as far as it wants them.

So what two tracers are told of one run differs by their masks only, and the events of a run have a
fixed form (`Machine.runTraced_observes`). -/

namespace PushMachine

/-! ## The events of a step -/

/-- The events of a call: it starts, perhaps gives up (`.reverted`), and ends. -/
def Event.ofCall (number : Nat) (name : String) (outcome : Outcome) : List Event :=
  .enter name number ::
    ((if outcome = .reverted then [.reverted name number] else []) ++
      [.exit name number outcome])

/-- **The events of a step**: the atom is taken, and the call that it makes comes to the outcome in
`outcome?`. -/
def Event.ofStep (number : Nat) (atom : Atom) (outcome? : Option Outcome) : List Event :=
  .step number atom ::
    match atom.called?, outcome? with
    | some name, some outcome => ofCall number name outcome
    | _, _ => []

/-- A step without an outcome is one event, `.step number atom`. -/
theorem Event.ofStep_none (number : Nat) (atom : Atom) :
    ofStep number atom none = [.step number atom] := by
  cases hcalled : atom.called? <;> simp only [ofStep, hcalled]

/-- A step with an outcome is followed by the events of the call, `ofCall`. -/
theorem Event.ofStep_some (number : Nat) {atom : Atom} {name : String} (outcome : Outcome)
    (called : atom.called? = some name) :
    ofStep number atom (some outcome) = .step number atom :: ofCall number name outcome := by
  simp only [ofStep, called]

/-! ## The report of a step -/

/-- A call reports the instruction if there is one. It ends in `.terminated` only if it stops the
run, and what it commits is within the growth allowed. -/
theorem Library.Calls.report {library : Library} {limits : Limits} {name : String} {state : State}
    {effect : Effect} (calls : library.Calls limits name state effect) :
    (effect.call = none ∧ library.instructions.contains name = false) ∨
      ∃ outcome, effect.call = some (name, outcome) ∧
        library.instructions.contains name = true ∧
        (outcome = .terminated → effect.stop.isSome = true) ∧
        ∀ pushed, outcome = .committed pushed → pushed ≤ limits.growthCap := by
  cases calls with
  | unknown missing =>
    rw [InstructionSet.contains, missing]
    exact .inl ⟨rfl, rfl⟩
  | committed found done fits =>
    rw [InstructionSet.contains, found]
    refine .inr ⟨_, rfl, rfl, nofun, fun pushed heq => ?_⟩
    obtain rfl := Outcome.committed.inj heq
    exact fits
  | reverted found failed =>
    rw [InstructionSet.contains, found]
    exact .inr ⟨_, rfl, rfl, nofun, nofun⟩
  | terminated found tried reason =>
    rw [InstructionSet.contains, found]
    exact .inr ⟨_, rfl, rfl, fun _ => rfl, nofun⟩

namespace Dispatch

variable {library : Library} {limits : Limits}

/-- **What a dispatch reports**: nothing, if its atom does not call an instruction of the library,
and else the call and its outcome (`Effect.call`). -/
theorem report (library : Library) (limits : Limits) (dispatch : Dispatch) :
    ((dispatch.effect library limits).call = none ∧
        ¬∃ name, dispatch.atom.called? = some name ∧
          library.instructions.contains name = true) ∨
      ∃ name outcome, dispatch.atom.called? = some name ∧
        (dispatch.effect library limits).call = some (name, outcome) ∧
        library.instructions.contains name = true ∧
        (outcome = .terminated → (dispatch.effect library limits).stop.isSome = true) ∧
        ∀ pushed, outcome = .committed pushed → pushed ≤ limits.growthCap := by
  cases hcalled : dispatch.atom.called? with
  | none => exact .inl ⟨(library.perform_pushes limits dispatch.state hcalled).1, nofun⟩
  | some name =>
    rcases (dispatch.calls library limits hcalled).report with
      ⟨hcall, hmissing⟩ | ⟨outcome, hcall, hreport⟩
    · refine .inl ⟨hcall, ?_⟩
      rintro ⟨called, heq, hcontains⟩
      obtain rfl := Option.some.inj heq
      rw [hmissing] at hcontains
      cases hcontains
    · exact .inr ⟨name, outcome, rfl, hcall, hreport⟩

/-- **The events of dispatches**, whose steps are numbered from `first` on. -/
def events (library : Library) (limits : Limits) (dispatches : List Dispatch) (first : Nat) :
    List Event :=
  (dispatches.zipIdx first).flatMap fun (dispatch, number) =>
    Event.ofStep number dispatch.atom (dispatch.outcome? library limits)

/-- The events of one dispatch, `Event.ofStep`, come before those of the further ones. -/
theorem events_cons (dispatch : Dispatch) (rest : List Dispatch) (first : Nat) :
    events library limits (dispatch :: rest) first =
      Event.ofStep first dispatch.atom (dispatch.outcome? library limits) ++
        events library limits rest (first + 1) := rfl

end Dispatch

/-! ## What a tracer is told -/

/-- The mask of all events wants every event. -/
theorem EventMask.all_wants (event : Event) : all.wants event = true := by
  cases event <;> rfl

namespace Tracer

variable {σ : Type} (tracer : Tracer σ)

/-- **Hands events to a tracer**, which handles those that its `mask` wants. -/
def deliver (events : List Event) (data : σ) : σ :=
  (events.filter tracer.mask.wants).foldl (fun data event => tracer.handle event data) data

/-- The events are handed over one after another. -/
theorem deliver_cons (event : Event) (rest : List Event) (data : σ) :
    tracer.deliver (event :: rest) data = tracer.deliver rest (tracer.emit event data) := by
  by_cases wanted : tracer.mask.wants event = true
  · rw [deliver, List.filter_cons, if_pos wanted, emit, if_pos wanted]
    rfl
  · rw [deliver, List.filter_cons, if_neg wanted, emit, if_neg wanted]
    rfl

/-- First the ones, then the others. -/
theorem deliver_append (first second : List Event) (data : σ) :
    tracer.deliver (first ++ second) data = tracer.deliver second (tracer.deliver first data) := by
  rw [deliver, List.filter_append, List.foldl_append]
  rfl

/-- A recorder has recorded the events that `mask` wants. -/
theorem reverse_deliver_recorder (mask : EventMask) (events : List Event) :
    ((recorder mask).deliver events []).reverse = events.filter mask.wants := by
  rw [deliver, recorder, List.foldl_flip_cons_eq_append', List.append_nil, List.reverse_reverse]

/-- What `emitCall` reports of a call is its events, `Event.ofCall`. -/
theorem emitCall_eq (number : Nat) (name : String) (outcome : Outcome) (data : σ) :
    tracer.emitCall number (some (name, outcome)) data =
      tracer.deliver (Event.ofCall number name outcome) data := by
  rw [emitCall, Event.ofCall, deliver_cons]
  by_cases reverted : outcome = .reverted
  · rw [if_pos reverted, if_pos reverted, List.singleton_append, deliver_cons, deliver_cons]
    rfl
  · rw [if_neg reverted, if_neg reverted, List.nil_append, deliver_cons]
    rfl

/-- **What is reported of a dispatch** is its events, `Event.ofStep`. -/
theorem emit_dispatch (library : Library) (limits : Limits) (dispatch : Dispatch) (number : Nat)
    (data : σ) :
    tracer.emitCall number (dispatch.effect library limits).call
        (tracer.emit (.step number dispatch.atom) data) =
      tracer.deliver
        (Event.ofStep number dispatch.atom (dispatch.outcome? library limits)) data := by
  rcases dispatch.report library limits with ⟨hcall, -⟩ | ⟨name, outcome, hcalled, hcall, -⟩
  · rw [Dispatch.outcome?, hcall, Option.map_none, Event.ofStep_none, deliver_cons]
    rfl
  · rw [Dispatch.outcome?, hcall, Option.map_some, Event.ofStep_some number outcome hcalled,
      deliver_cons, emitCall_eq]

end Tracer

/-! ## Runs with a tracer -/

/-- **A run with a tracer** is the run without one, and the tracer is told of its dispatches, by
`deliver`. -/
theorem Library.proceed_traced {σ : Type} (library : Library) (limits : Limits) (clock : Clock)
    (tracer : Tracer σ) (remaining steps : Nat) (state : State) (data : σ) :
    library.proceed limits clock tracer remaining steps state data =
      let plain := library.proceed limits clock .silent remaining steps state ()
      ⟨plain.reason, plain.steps, plain.state,
        tracer.deliver (Dispatch.events library limits
          (library.dispatches limits (clock.grants limits remaining steps) state)
          (steps + 1)) data⟩ := by
  -- By induction on the steps that are left; both runs take the same turns.
  induction remaining generalizing steps state data with
  | zero =>
    by_cases empty : state.depth .exec = 0
    · rw [proceed_of_idle empty, proceed_of_idle empty]
      rfl
    · rw [proceed_zero empty, proceed_zero empty]
      rfl
  | succ remaining ih =>
    cases library.turn limits clock steps state with
    | idle empty =>
      rw [proceed_of_idle empty, proceed_of_idle empty, dispatches_of_idle empty]
      rfl
    | spent pending spent =>
      rw [proceed_of_spent pending spent, proceed_of_spent pending spent,
        Clock.grants_of_spent spent]
      rfl
    | unpending pending unspent failed =>
      rw [proceed_of_unpending pending unspent failed, proceed_of_unpending pending unspent failed,
        dispatches_of_failed failed]
      rfl
    | @stopped atom popped reason pending unspent taken stops =>
      rw [proceed_of_stopped pending unspent taken stops,
        proceed_of_stopped pending unspent taken stops, Clock.grants_of_unspent unspent,
        dispatches_of_stopped taken stops, Dispatch.events_cons, Tracer.deliver_append,
        ← tracer.emit_dispatch]
      rfl
    | @going atom popped pending unspent taken goes =>
      rw [proceed_of_going pending unspent taken goes, proceed_of_going pending unspent taken goes,
        Clock.grants_of_unspent unspent, dispatches_of_going taken goes, Dispatch.events_cons,
        Tracer.deliver_append, ← tracer.emit_dispatch, ih]
      rfl

namespace Machine

/-- The run of a program with a tracer is `Machine.run`, and the tracer is told of its start, its
dispatches and its end. -/
theorem runTraced_eq {σ : Type} (machine : Machine) (code : Block) (inputs : List Value)
    (outputs : List String) (limits : Limits) (clock : Clock) (tracer : Tracer σ) (data : σ) :
    let ran := machine.run code inputs outputs limits clock
    let dispatches := machine.dispatches limits clock code inputs
    machine.runTraced code inputs outputs limits clock tracer data =
      (ran.1, ran.2, tracer.deliver (.runStart code inputs.length ::
        (Dispatch.events machine.library limits dispatches 1 ++
          [.runEnd ran.1.steps ran.1.reason])) data) := by
  simp only [run, runTraced, dispatches, firstDispatches, Tracer.deliver_cons,
    Tracer.deliver_append]
  rcases machine.load code inputs with ⟨empty, fault | start⟩
  · rfl
  · simp only
    rw [machine.library.proceed_traced limits clock tracer]
    rfl

/-- The number of dispatches is the number of steps. -/
theorem length_dispatches (machine : Machine) (code : Block) (inputs : List Value)
    (outputs : List String) (limits : Limits) (clock : Clock) :
    (machine.dispatches limits clock code inputs).length =
      (machine.run code inputs outputs limits clock).1.steps := by
  simp only [run, runTraced, dispatches, firstDispatches]
  rcases machine.load code inputs with ⟨empty, fault | start⟩
  · rfl
  · simp only [Library.proceed_steps, Nat.zero_add]

/-- A dispatch that stops the run (`Effect.stop`) is the last. -/
theorem stop_of_dispatches {machine : Machine} {limits : Limits} {clock : Clock} {code : Block}
    {inputs : List Value} {i : Nat} {dispatch : Dispatch}
    (h : (machine.dispatches limits clock code inputs)[i]? = some dispatch)
    (stops : (dispatch.effect machine.library limits).stop.isSome = true) :
    (machine.dispatches limits clock code inputs).length = i + 1 := by
  obtain ⟨reason, hreason⟩ := Option.isSome_iff_exists.mp stops
  rw [dispatches, firstDispatches] at h ⊢
  rcases hload : machine.load code inputs with ⟨empty, fault | start⟩
  · simp only [hload] at h
    cases h
  · simp only [hload] at h ⊢
    exact Library.stop_of_dispatches h hreason

/-- **Tracing observes and never interferes**. Whatever tracer is told of it, `runTraced` reports
the same and leaves the same state. What one is told under a mask is what it is told without, less
the kinds of events that the mask lacks. The events are the start, for each step the atom and,
exactly if it calls an instruction of the library, its call, and the end; only the last call can end
in termination, and every committed one is within the growth allowed. -/
theorem runTraced_observes (machine : Machine) (code : Block) (inputs : List Value)
    (outputs : List String) (limits : Limits) (clock : Clock) :
    let ran := machine.run code inputs outputs limits clock
    let dispatches := machine.dispatches limits clock code inputs
    let events : List Event := .runStart code inputs.length ::
      (Dispatch.events machine.library limits dispatches 1 ++
        [.runEnd ran.1.steps ran.1.reason])
    let told (mask : EventMask) : List Event :=
      (machine.runTraced code inputs outputs limits clock (.recorder mask) []).2.2.reverse
    (∀ (σ : Type) (tracer : Tracer σ) (data : σ),
      machine.runTraced code inputs outputs limits clock tracer data =
        (ran.1, ran.2, tracer.deliver events data)) ∧
    told .all = events ∧ (∀ mask, told mask = (told .all).filter mask.wants) ∧
    dispatches.length = ran.1.steps ∧
    ∀ i dispatch, dispatches[i]? = some dispatch →
      let outcome? := dispatch.outcome? machine.library limits
      (outcome?.isSome = true ↔ ∃ name, dispatch.atom.called? = some name ∧
        machine.library.instructions.contains name = true) ∧
      (outcome? = some .terminated → i + 1 = ran.1.steps) ∧
      ∀ pushed, outcome? = some (.committed pushed) → pushed ≤ limits.growthCap := by
  intro ran dispatches events told
  have htraced (σ : Type) (tracer : Tracer σ) (data : σ) :
      machine.runTraced code inputs outputs limits clock tracer data =
        (ran.1, ran.2, tracer.deliver events data) :=
    machine.runTraced_eq code inputs outputs limits clock tracer data
  have htold (mask : EventMask) : told mask = events.filter mask.wants := by
    simp only [told, htraced]
    exact Tracer.reverse_deliver_recorder mask events
  have hall : told .all = events := by
    rw [htold, List.filter_eq_self]
    exact fun event _ => EventMask.all_wants event
  have hlength := machine.length_dispatches code inputs outputs limits clock
  refine ⟨htraced, hall, fun mask => by rw [hall, htold], hlength, fun i dispatch hget => ?_⟩
  -- A dispatch reports an outcome only when it calls an instruction that there is.
  rcases dispatch.report machine.library limits with
    ⟨hcall, hnone⟩ | ⟨name, outcome, hcalled, hcall, hcontains, hstop, hfits⟩
  · simp only [Dispatch.outcome?, hcall, Option.map_none]
    exact ⟨⟨nofun, fun h => absurd h hnone⟩, nofun, nofun⟩
  · simp only [Dispatch.outcome?, hcall, Option.map_some]
    refine ⟨⟨fun _ => ⟨name, hcalled, hcontains⟩, fun _ => rfl⟩, fun heq => ?_,
      fun pushed heq => ?_⟩
    · exact (stop_of_dispatches hget (hstop (Option.some.inj heq))).symm.trans hlength
    · exact hfits pushed (Option.some.inj heq)

/-- A machine that has the core types and can only shuffle integers. -/
def shufflingMachine : Machine :=
  ⟨⟨.core, ⟨Instruction.shuffling .int Registry.builtinTypes[3]⟩⟩, .ofRegistry .core⟩

/-- A program that gives up once, as there is only one integer to swap, and in the end makes more
copies than allowed. -/
def overcopyingCode : Block :=
  [.literal (.int 4) .int, .instr "int_swap" 0, .literal (.int 3) .int, .deferred "int_dup_times"]

/-- The tracer that wants to know of giving up only is told of it only, and the fifth step, whose
call ends in termination, is the last. -/
theorem runTraced_observes_overcopying :
    let limits : Limits := { growthCap := 2, stepLimit := 9 }
    (shufflingMachine.runTraced overcopyingCode [] [] limits .still (.recorder { revert := true })
      []).2.2.reverse = [.reverted "int_swap" 3] ∧
    ∃ dispatch, (shufflingMachine.dispatches limits .still overcopyingCode [])[4]? = some dispatch ∧
      dispatch.outcome? shufflingMachine.library limits = some .terminated ∧
      (shufflingMachine.run overcopyingCode [] [] limits .still).1.steps = 5 := by
  obtain ⟨-, hall, hmask, -, hsteps⟩ :=
    runTraced_observes shufflingMachine overcopyingCode [] [] { growthCap := 2, stepLimit := 9 }
      .still
  refine ⟨(hmask _).trans ?_, ?_⟩
  · exact (congrArg (List.filter _) hall).trans rfl
  · obtain ⟨-, hlast, -⟩ := hsteps 4 _ rfl
    exact ⟨_, rfl, rfl, (hlast rfl).symm⟩

end Machine

end PushMachine
