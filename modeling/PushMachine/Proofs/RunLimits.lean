import PushMachine.Proofs.StackTyping

/-! # What the limits of a run do

The limits on steps and on growth only cut runs short. A run that ended for another reason is the
same under all wider limits, a run with fewer steps allowed ends in a state that the longer run
came through, and no run takes more steps than it may. The two runs have the same `Clock`, so that
they are equally late after the same steps.

The facts are shown about two runs side by side, turn by turn. A run that stops because its time is
up or its pending work is no code stops without taking a step; there the number of steps does not
tell the two runs apart. The one is left out, and the other is ruled out by the discipline of the
registry. -/

namespace PushMachine

/-- **Limits that are as wide**: the same caps on sizes and the same time, and `growthCap` is not
smaller. -/
structure Limits.Widens (limits wider : Limits) : Prop where
  /-- The caps on sizes are the same. -/
  caps : wider.toSizeCaps = limits.toSizeCaps
  /-- The time is the same. -/
  time : wider.runtimeLimitMs = limits.runtimeLimitMs
  /-- As much growth is allowed. -/
  growth : limits.growthCap ≤ wider.growthCap

/-- A clock is spent (`isSpent`) at the same time under wider limits. -/
theorem Clock.isSpent_of_widens {limits wider : Limits} (widens : limits.Widens wider)
    (clock : Clock) (steps : Nat) : clock.isSpent wider steps = clock.isSpent limits steps := by
  rw [isSpent, isSpent, widens.time]

namespace Library

variable {σ : Type} {library : Library} {limits wider : Limits} {clock : Clock} {tracer : Tracer σ}
  {remaining steps : Nat} {state : State} {atom : Atom} {data : σ}

/-! ## Steps are determined -/

/-- After a number of `Steps` a run is in one state. -/
theorem Steps.unique {n : Nat} {first second : State} (one : library.Steps limits n state first)
    (other : library.Steps limits n state second) : first = second := by
  induction one with
  | zero =>
    cases other
    rfl
  | succ taken goes rest ih =>
    cases other with
    | succ taken' goes' rest' =>
      rw [taken] at taken'
      cases taken'
      exact ih rest'

/-- No atom has the `stop` that the steps are used up. -/
theorem perform_stop_ne_stepLimitExceeded (library : Library) (limits : Limits) (state : State)
    (atom : Atom) : (library.perform limits state atom).stop ≠ some .stepLimitExceeded := by
  intro hstop
  cases stopsFor hstop

/-! ## Wider limits -/

/-- A call that does not push more than `growthCap` does the same under wider limits. -/
theorem call_eq_of_widens (widens : limits.Widens wider) {name : String}
    (fits : (library.call limits name state).stop ≠ some .growthCapExceeded) :
    library.call wider name state = library.call limits name state := by
  unfold call at fits ⊢
  rw [widens.caps]
  cases hfound : library.instructions.get? name with
  | none => rfl
  | some instruction =>
    simp only [hfound] at fits ⊢
    rcases heval : instruction.eval limits.toSizeCaps state.openTransaction with
      ⟨fault | done, after⟩
    · cases fault <;> rfl
    · simp only [heval] at fits ⊢
      -- The calls could differ only for growth between the two limits, where the first one stops.
      by_cases hgrown : limits.growthCap < after.pushed
      · exact absurd (by rw [if_pos hgrown]) fits
      · have hfits : ¬wider.growthCap < after.pushed := by
          have := widens.growth
          omega
        rw [if_neg hgrown, if_neg hfits]

/-- An atom that does not stop the run for `.growthCapExceeded` does the same under wider limits. -/
theorem perform_eq_of_widens (widens : limits.Widens wider)
    (fits : (library.perform limits state atom).stop ≠ some .growthCapExceeded) :
    library.perform wider state atom = library.perform limits state atom := by
  cases hcalled : atom.called? with
  | none => exact perform_of_not_called hcalled _ _ _ _
  | some name =>
    rw [perform_of_called hcalled] at fits
    rw [perform_of_called hcalled, perform_of_called hcalled, call_eq_of_widens widens fits]

/-! ## Two runs side by side -/

/-- A run counts on from the `steps` before it and takes no more than `remaining`, and it is cut
short only after all of them and with pending work. -/
theorem steps_proceed (library : Library) (limits : Limits) (clock : Clock) (tracer : Tracer σ)
    (remaining steps : Nat) (state : State) (data : σ) :
    let ending := library.proceed limits clock tracer remaining steps state data
    steps ≤ ending.steps ∧ ending.steps ≤ steps + remaining ∧
      (ending.reason = .stepLimitExceeded →
        ending.steps = steps + remaining ∧ ending.state.depth .exec ≠ 0) := by
  induction remaining generalizing steps state data with
  | zero =>
    by_cases empty : state.depth .exec = 0
    · rw [proceed_of_idle empty]
      exact ⟨Nat.le_refl steps, Nat.le_refl steps, nofun⟩
    · rw [proceed_zero empty]
      exact ⟨Nat.le_refl steps, Nat.le_refl steps, fun _ => ⟨rfl, empty⟩⟩
  | succ remaining ih =>
    -- Only a turn that goes on needs the induction hypothesis: all others end the run here.
    cases library.turn limits clock steps state with
    | idle empty =>
      rw [proceed_of_idle empty]
      exact ⟨Nat.le_refl steps, Nat.le_add_right _ _, nofun⟩
    | spent pending spent =>
      rw [proceed_of_spent pending spent]
      exact ⟨Nat.le_refl steps, Nat.le_add_right _ _, nofun⟩
    | unpending pending unspent failed =>
      rw [proceed_of_unpending pending unspent failed]
      exact ⟨Nat.le_refl steps, Nat.le_add_right _ _, nofun⟩
    | @stopped atom popped reason pending unspent taken stops =>
      rw [proceed_of_stopped pending unspent taken stops]
      refine ⟨Nat.le_succ steps, by simp only; omega, fun hreason => ?_⟩
      obtain rfl : reason = .stepLimitExceeded := hreason
      exact absurd stops (library.perform_stop_ne_stepLimitExceeded limits popped atom)
    | going pending unspent taken goes =>
      rw [proceed_of_going pending unspent taken goes]
      obtain ⟨hfrom, hle, hexhausted⟩ := ih (steps + 1) _ _
      rw [Nat.add_right_comm] at hle hexhausted
      exact ⟨Nat.le_of_succ_le hfrom, hle, hexhausted⟩

/-- The number `stepLimit` of steps allowed in all plays no part in a turn. -/
theorem proceed_with_stepLimit (stepLimit : Nat) :
    library.proceed { limits with stepLimit } clock tracer remaining steps state data =
      library.proceed limits clock tracer remaining steps state data := by
  have hperform : library.perform { limits with stepLimit } = library.perform limits := rfl
  have hspent (taken : Nat) :
      clock.isSpent { limits with stepLimit } taken = clock.isSpent limits taken := rfl
  induction remaining generalizing steps state data with
  | zero => rw [proceed, proceed]
  | succ remaining ih => simp only [proceed, hperform, hspent, ih]

/-- **A run with fewer steps** than another one takes ends after all its steps, with pending work,
in the state that the other one has reached then by `Steps`. -/
theorem exists_steps_of_lt {shorter : Nat}
    (lt : steps + shorter <
      (library.proceed limits clock tracer remaining steps state data).steps) :
    ∃ middle after, library.Steps limits shorter state middle ∧ middle.depth .exec ≠ 0 ∧
      library.proceed limits clock tracer shorter steps state data =
        ⟨.stepLimitExceeded, steps + shorter, middle, after⟩ := by
  -- The longer run still has turns to take, so both runs take the same turn.
  induction shorter generalizing remaining steps state data with
  | zero =>
    have pending : state.depth .exec ≠ 0 := fun empty => by
      rw [proceed_of_idle empty] at lt
      exact Nat.lt_irrefl _ lt
    exact ⟨state, data, .zero, pending, proceed_zero pending⟩
  | succ shorter ih =>
    cases remaining with
    | zero =>
      have := (library.steps_proceed limits clock tracer 0 steps state data).2.1
      omega
    | succ remaining =>
      cases library.turn limits clock steps state with
      | idle empty =>
        rw [proceed_of_idle empty] at lt
        simp only at lt
        omega
      | spent pending spent =>
        rw [proceed_of_spent pending spent] at lt
        simp only at lt
        omega
      | unpending pending unspent failed =>
        rw [proceed_of_unpending pending unspent failed] at lt
        simp only at lt
        omega
      | stopped pending unspent taken stops =>
        rw [proceed_of_stopped pending unspent taken stops] at lt
        simp only at lt
        omega
      | going pending unspent taken goes =>
        rw [proceed_of_going pending unspent taken goes] at lt ⊢
        rw [← Nat.add_assoc, Nat.add_right_comm] at lt ⊢
        obtain ⟨middle, after, hsteps, hpending, hends⟩ := ih lt
        exact ⟨middle, after, .succ taken goes hsteps, hpending, hends⟩

/-- Wherever a run has pending work, `popAtom` can take an atom from it. -/
def Takes (library : Library) (limits : Limits) (state : State) : Prop :=
  ∀ n last, library.Steps limits n state last → last.depth .exec ≠ 0 →
    ∃ atom popped, (Script.popAtom .exec).run last = (.ok atom, popped)

/-- It stays so after a step: `Takes` is an invariant. -/
theorem Takes.next (takes : library.Takes limits state) {popped : State}
    (taken : (Script.popAtom .exec).run state = (.ok atom, popped))
    (goes : (library.perform limits popped atom).stop = none) :
    library.Takes limits (library.perform limits popped atom).state :=
  fun n last hsteps => takes (n + 1) last (.succ taken goes hsteps)

/-- **A run under wider limits** (`Widens`) is the same, if it was neither cut short nor late and as
many steps are allowed as it took. -/
theorem proceed_eq_of_widens (widens : limits.Widens wider) {allowed : Nat}
    (takes : library.Takes limits state)
    (unexhausted : (library.proceed limits clock tracer remaining steps state data).reason ≠
      .stepLimitExceeded)
    (inTime : (library.proceed limits clock tracer remaining steps state data).reason ≠
      .timeLimitExceeded)
    (fits : (library.proceed limits clock tracer remaining steps state data).reason ≠
      .growthCapExceeded)
    (enough : (library.proceed limits clock tracer remaining steps state data).steps ≤
      steps + allowed) :
    library.proceed wider clock tracer allowed steps state data =
      library.proceed limits clock tracer remaining steps state data := by
  induction remaining generalizing allowed steps state data with
  | zero =>
    by_cases empty : state.depth .exec = 0
    · rw [proceed_of_idle empty, proceed_of_idle empty]
    · rw [proceed_zero empty] at unexhausted
      exact absurd rfl unexhausted
  | succ remaining ih =>
    cases library.turn limits clock steps state with
    | idle empty => rw [proceed_of_idle empty, proceed_of_idle empty]
    | spent pending spent =>
      rw [proceed_of_spent pending spent] at inTime
      exact absurd rfl inTime
    | unpending pending unspent failed =>
      obtain ⟨atom, popped, taken⟩ := takes 0 state .zero pending
      rw [failed] at taken
      cases taken
    | @stopped atom popped reason pending unspent taken stops =>
      rw [proceed_of_stopped pending unspent taken stops] at fits enough ⊢
      -- The step that stopped the run is counted, so it is allowed.
      obtain ⟨more, rfl⟩ : ∃ more, allowed = more + 1 :=
        ⟨allowed - 1, by simp only at enough; omega⟩
      have hsame : library.perform wider popped atom = library.perform limits popped atom := by
        refine perform_eq_of_widens widens fun hgrown => ?_
        rw [stops] at hgrown
        exact fits (Option.some.inj hgrown)
      have hunspent := (clock.isSpent_of_widens widens steps).trans unspent
      rw [proceed_of_stopped pending hunspent taken (hsame ▸ stops), hsame]
    | @going atom popped pending unspent taken goes =>
      rw [proceed_of_going pending unspent taken goes] at unexhausted inTime fits enough ⊢
      have hcounted : steps + 1 ≤ steps + allowed :=
        (library.steps_proceed limits clock tracer remaining (steps + 1) _ _).1.trans enough
      obtain ⟨more, rfl⟩ : ∃ more, allowed = more + 1 := ⟨allowed - 1, by omega⟩
      have hsame : library.perform wider popped atom = library.perform limits popped atom := by
        refine perform_eq_of_widens widens fun hgrown => ?_
        rw [goes] at hgrown
        cases hgrown
      have hunspent := (clock.isSpent_of_widens widens steps).trans unspent
      rw [proceed_of_going pending hunspent taken (hsame ▸ goes), hsame]
      exact ih (takes.next taken goes) unexhausted inTime fits (by omega)

end Library

namespace Registry

variable {registry : Registry}

/-- Every value is sound under the `discipline` that asks nothing of expressions. -/
theorem sound_of_free (registry : Registry) (value : Value) :
    (registry.discipline fun _ => True).sound value :=
  value.every_of_forall fun _ => trivial

/-- The discipline of a registry that asks nothing of expressions governs every part of its core
set. -/
theorem KeepsCore.governs_part (keeps : registry.KeepsCore) {set : InstructionSet}
    (part : ∀ instruction ∈ set.instructions,
      instruction ∈ (InstructionSet.core registry).instructions) (caps : SizeCaps)
    (inputs : List Value) :
    (registry.discipline fun _ => True).Governs ⟨registry, set⟩ caps inputs := by
  have closed := keeps.closed (p := fun _ => True) (fun _ => trivial) (fun _ => trivial)
    (fun _ _ => trivial) caps
  exact keeps.governs closed part fun value _ => sound_of_free registry value

/-- The discipline of a registry that asks nothing of expressions governs its core set. -/
theorem KeepsCore.governs_core (keeps : registry.KeepsCore) (caps : SizeCaps)
    (inputs : List Value) :
    (registry.discipline fun _ => True).Governs ⟨registry, .core registry⟩ caps inputs :=
  keeps.governs_part (fun _ hcore => hcore) caps inputs

end Registry

namespace Machine

variable {registry : Registry} {machine : Machine}

/-! ## Machines and their runs -/

/-- **A machine of a library**: a fresh one of `ofLibrary`, or one that has run programs. -/
inductive MadeOf (library : Library) : Machine → Prop where
  /-- The machine of the library. -/
  | fresh {machine : Machine} (made : ofLibrary library = .ok machine) : MadeOf library machine
  /-- The machine after a run, whatever its program, limits, `clock` and `tracer`. -/
  | used {machine : Machine} {σ : Type} (before : MadeOf library machine) (code : Block)
      (inputs : List Value) (outputs : List String) (limits : Limits) (clock : Clock)
      (tracer : Tracer σ) (data : σ) :
    MadeOf library (machine.runTraced code inputs outputs limits clock tracer data).2.1

/-- A machine with instructions of a registry's core set keeps them, and it has a stack for every
type. -/
theorem MadeOf.prepared (keeps : registry.KeepsCore) {set : InstructionSet}
    (part : ∀ instruction ∈ set.instructions,
      instruction ∈ (InstructionSet.core registry).instructions)
    (madeOf : machine.MadeOf ⟨registry, set⟩) :
    machine.library = ⟨registry, set⟩ ∧
      ∀ id, (machine.state.stack? id).isSome ↔ (registry.get? id).isSome := by
  induction madeOf with
  | fresh made =>
    have hmade : ofLibrary ⟨registry, set⟩ = .ok ⟨_, .ofRegistry registry⟩ :=
      ofLibrary_of_touched fun _ h => (InstructionSet.mem_core (part _ h)).2
    obtain rfl := Except.ok.inj (made.symm.trans hmade)
    refine ⟨rfl, fun id => ?_⟩
    rw [State.stack?_ofRegistry, Option.isSome_map]
  | used before code inputs outputs limits clock tracer data ih =>
    obtain ⟨hlibrary, hstacks⟩ := ih
    refine ⟨hlibrary, ?_⟩
    -- A run keeps which stacks there are, so the next run starts from the same ones.
    have governs := hlibrary ▸ keeps.governs_part part limits.toSizeCaps inputs
    obtain ⟨start, hload, hstart⟩ := governs.load _ (State.governed_reset hstacks _ inputs)
      (registry.sound_of_free (.code (.expr (.block code))))
    rw [runTraced, hload]
    exact ((governs.proceed hstart clock tracer limits.stepLimit 0 _).1.fits keeps).stack_iff

/-- The machine `Machine.core` is a machine of the core library. -/
theorem core_madeOf : core.MadeOf .core :=
  .fresh (ofLibrary_of_touched fun _ h => (InstructionSet.mem_core h).2)

/-- A machine with the core instructions loads every program, and `Takes` an atom from the pending
work wherever there is some. -/
theorem MadeOf.load (keeps : registry.KeepsCore)
    (madeOf : machine.MadeOf ⟨registry, .core registry⟩)
    (limits : Limits) (code : Block) (inputs : List Value) :
    ∃ empty start, machine.load code inputs = (empty, .ok start) ∧
      machine.library.Takes limits start := by
  obtain ⟨hlibrary, hstacks⟩ := madeOf.prepared keeps fun _ h => h
  have governs := hlibrary ▸ keeps.governs_core limits.toSizeCaps inputs
  obtain ⟨start, hload, hstart⟩ := governs.load _ (State.governed_reset hstacks _ inputs)
    (registry.sound_of_free (.code (.expr (.block code))))
  refine ⟨_, start, hload, fun n last hsteps hpending => ?_⟩
  exact governs.exists_taken (governs.steps hsteps hstart) hpending

/-- What `run` does to a machine and reports, if the program could be loaded, in terms of
`Library.proceed`. -/
theorem run_eq_of_load {code : Block} {inputs : List Value} {empty start : State}
    (hload : machine.load code inputs = (empty, .ok start)) (outputs : List String)
    (limits : Limits) (clock : Clock) :
    machine.run code inputs outputs limits clock =
      let ending := machine.library.proceed limits clock .silent limits.stepLimit 0 start ()
      let after : Machine := ⟨machine.library, ending.state⟩
      (⟨outputs.map after.output?, ending.state.stdout, ending.reason, ending.steps⟩, after) := by
  rw [run, runTraced, hload]

/-- **The limits only cut runs short**, on a machine with the core instructions of a registry that
evolved from the core one. A run that ended for another reason than a limit is the same under all
limits that allow its steps and as much growth. With fewer steps allowed than a run takes, it ends
for that reason after all of them, with pending work and in the state that the run reached then. So
no run takes more steps than allowed, and one that ends for that reason took them all. -/
theorem run_cut_short (registry : Registry) (history : Registry.core.Evolves registry)
    (machine : Machine) (madeOf : machine.MadeOf ⟨registry, .core registry⟩) (code : Block)
    (inputs : List Value) (outputs : List String) (limits : Limits) (clock : Clock) :
    let ran := machine.run code inputs outputs limits clock
    (ran.1.reason ≠ .stepLimitExceeded → ran.1.reason ≠ .timeLimitExceeded →
      ran.1.reason ≠ .growthCapExceeded →
      ∀ stepLimit growthCap, ran.1.steps ≤ stepLimit → limits.growthCap ≤ growthCap →
        machine.run code inputs outputs { limits with stepLimit, growthCap } clock = ran) ∧
    (∀ stepLimit < ran.1.steps,
      let cut := machine.run code inputs outputs { limits with stepLimit } clock
      cut.1.reason = .stepLimitExceeded ∧ cut.1.steps = stepLimit ∧
        cut.2.state.depth .exec ≠ 0 ∧
        ∀ state, machine.Reaches limits code inputs stepLimit state ↔ state = cut.2.state) ∧
    ran.1.steps ≤ limits.stepLimit ∧
    (ran.1.reason = .stepLimitExceeded →
      ran.1.steps = limits.stepLimit ∧ ran.2.state.depth .exec ≠ 0) := by
  obtain ⟨empty, start, hload, htakes⟩ := madeOf.load history.keepsCore limits code inputs
  simp only [run_eq_of_load hload]
  obtain ⟨-, hbound, hexhausted⟩ :=
    machine.library.steps_proceed limits clock .silent limits.stepLimit 0 start ()
  rw [Nat.zero_add] at hbound hexhausted
  refine ⟨fun hunexhausted hinTime hfits stepLimit growthCap henough hgrowth => ?_,
    fun stepLimit hlt => ?_, hbound, hexhausted⟩
  · have hwidens : limits.Widens { limits with stepLimit, growthCap } := ⟨rfl, rfl, hgrowth⟩
    have hallowed := Nat.le_trans henough (Nat.le_add_left stepLimit 0)
    rw [Library.proceed_eq_of_widens hwidens htakes hunexhausted hinTime hfits hallowed]
  · rw [← Nat.zero_add stepLimit] at hlt
    -- The shorter run ends at the state that the longer one passes through.
    obtain ⟨middle, data, hsteps, hpending, hends⟩ := Library.exists_steps_of_lt hlt
    simp only [Library.proceed_with_stepLimit, hends]
    refine ⟨trivial, Nat.zero_add _, hpending, fun state => ⟨?_, ?_⟩⟩
    · rintro ⟨loaded, hloaded, hreached⟩
      rw [hload] at hloaded
      cases hloaded
      exact hreached.unique hsteps
    · rintro rfl
      exact ⟨start, by rw [hload], hsteps⟩

/-- A machine on which two types overlap, and which has run a program that failed. -/
def oddMachine : Machine :=
  (Machine.run ⟨⟨oddRegistry, .core oddRegistry⟩, .ofRegistry oddRegistry⟩
    [.literal (.int 2) .int, .input 3] [] [] {} .still).2

/-- A program of five steps on that machine is the same with five steps allowed, and with four its
last literal is still pending. -/
theorem run_cut_short_oddMachine :
    let code : Block := [.literal (.int 3) ⟨12⟩, .block [.input 0]]
    let limits : Limits := {}
    let ran := oddMachine.run code [.int 7] ["odd"] limits .still
    let cut := oddMachine.run code [.int 7] ["odd"] { limits with stepLimit := 4 } .still
    ran.1.reason.isNormal = true ∧ ran.1.steps = 5 ∧
      (∀ stepLimit growthCap, 5 ≤ stepLimit → limits.growthCap ≤ growthCap →
        oddMachine.run code [.int 7] ["odd"] { limits with stepLimit, growthCap } .still = ran) ∧
      cut.1.reason = .stepLimitExceeded ∧ cut.1.steps = 4 ∧ cut.2.state.depth .exec ≠ 0 ∧
      ∀ state, oddMachine.Reaches limits code [.int 7] 4 state ↔ state = cut.2.state := by
  have hfresh : MadeOf ⟨oddRegistry, .core oddRegistry⟩
      ⟨⟨oddRegistry, .core oddRegistry⟩, .ofRegistry oddRegistry⟩ :=
    .fresh (ofLibrary_of_touched fun instruction hmem => (InstructionSet.mem_core hmem).2)
  have hmade : oddMachine.MadeOf ⟨oddRegistry, .core oddRegistry⟩ :=
    hfresh.used [.literal (.int 2) .int, .input 3] [] [] {} .still .silent ()
  have hnormal : (oddMachine.run [.literal (.int 3) ⟨12⟩, .block [.input 0]] [.int 7] ["odd"]
      {} .still).1.reason.isNormal = true := by decide +kernel
  have hsteps : (oddMachine.run [.literal (.int 3) ⟨12⟩, .block [.input 0]] [.int 7] ["odd"]
      {} .still).1.steps = 5 := by decide +kernel
  obtain ⟨hsame, hcut, -⟩ := run_cut_short oddRegistry evolves_oddRegistry oddMachine hmade
    [.literal (.int 3) ⟨12⟩, .block [.input 0]] [.int 7] ["odd"] {} .still
  refine ⟨hnormal, hsteps, fun stepLimit growthCap henough => ?_, hcut 4 ?_⟩
  · refine hsame ?_ ?_ ?_ stepLimit growthCap (hsteps.le.trans henough)
    all_goals
      intro hreason
      rw [hreason] at hnormal
      cases hnormal
  · exact Nat.lt_of_lt_of_eq (Nat.lt_succ_self 4) hsteps.symm

end Machine

end PushMachine
