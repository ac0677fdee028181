import PushMachine.Proofs.Dispatches

/-! # Using a machine again

A run starts from the empty state that the state of the machine resets to. Every operation keeps
which stacks there are (`State.Did.reset_eq`), and so does taking a call back. Hence a run of any
length and with any ending leaves a state that resets to the same empty state
(`Machine.reset_runTraced`), and a machine that has run programs is as good as a fresh one. -/

namespace PushMachine

namespace State

variable {state next empty : State} {id : StackId}

/-! ## What resetting forgets -/

/-- Resetting forgets the items of a stack that `setStack` puts there. -/
theorem reset_setStack {items : List Value} (found : state.stack? id = some items)
    (new : List Value) : (state.setStack id new).reset = state.reset := by
  have hslot : (state.slots.map fun slot => slot.map fun _ => ([] : List Value))[id.index]? =
      some (some []) := by
    rw [List.getElem?_map, slot_of_stack? found]
    rfl
  obtain ⟨hlt, hitem⟩ := List.getElem?_eq_some_iff.mp hslot
  rw [reset, reset, setStack, List.map_set, Option.map_some, ← hitem, List.set_getElem_self]

/-- Resetting forgets the journal. -/
@[simp] theorem reset_note (change : Change) : (state.note change).reset = state.reset := by
  rw [note]
  split <;> rfl

/-- **The step**: resetting forgets an operation, so that `next.reset = state.reset`. -/
theorem Did.reset_eq {op : Op} {result : op.Result} (did : state.Did op result next) :
    next.reset = state.reset := by
  cases did with
  | push found | pop found | flush found | yank found item | shove found =>
    exact (reset_note _).trans (reset_setStack found _)
  | peek found item | depth => rfl
  | print fits =>
    have hnote : (state.note (.printed state.stdout.utf8ByteSize)).reset = state.reset :=
      reset_note _
    exact hnote

/-! ## States of a run -/

/-- **A state of a run** that started from `empty`: resetting leads back there, and the printed
characters are `Counted` right. -/
structure From (state empty : State) : Prop where
  /-- Resetting leads to the state `empty`. -/
  reset_eq : state.reset = empty
  /-- The count of printed characters is right. -/
  counted : state.Counted

namespace From

/-- The inputs and the transaction make no difference. -/
theorem of_same {other : State} (started : state.From empty) (slots : other.slots = state.slots)
    (stdout : other.stdout = state.stdout) (length : other.stdoutLength = state.stdoutLength) :
    other.From empty := by
  refine ⟨?_, ?_⟩
  · rw [reset, slots]
    exact started.reset_eq
  · rw [Counted, length, stdout]
    exact started.counted

/-- An operation, `state.Did op result next`, leads to another state of the run. -/
theorem did {op : Op} {result : op.Result} (did : state.Did op result next)
    (started : state.From empty) : next.From empty :=
  ⟨did.reset_eq.trans started.reset_eq, did.counted started.counted⟩

/-- So does a script, whether it is done or fails. -/
theorem run {α : Type} (started : state.From empty) (script : Script α) :
    (script.run state).2.From empty :=
  script.run_invariant (fun after => after.From empty) (fun did => From.did did) started

/-- So does pushing, `state.Pushes next`. -/
theorem pushes (started : state.From empty) (pushes : state.Pushes next) : next.From empty := by
  induction pushes with
  | none => exact started
  | push _ pushed ih => exact ih.did (did_of_push pushed)

variable {library : Library} {limits : Limits}

/-- So does calling an instruction, however `Library.call` ends. -/
theorem call (started : state.From empty) (name : String) :
    (library.call limits name state).state.From empty := by
  rcases library.call_state_cases limits name started.counted with
    hsame | hback | ⟨instruction, after, -, heval, -, hafter⟩
  · rw [hsame]
    exact started
  · rw [hback]
    exact started.of_same rfl rfl rfl
  -- Neither opening a transaction nor committing it makes or drops a stack.
  · have hopen : state.openTransaction.From empty := started.of_same rfl rfl rfl
    have htried : (instruction.eval limits.toSizeCaps state.openTransaction).2.From empty := by
      rw [Instruction.eval]
      split
      · exact hopen.run _
      · exact hopen
    rw [heval] at htried
    rw [hafter]
    exact htried.of_same rfl rfl rfl

/-- So does every atom, by `Library.perform`. -/
theorem perform (started : state.From empty) (atom : Atom) :
    (library.perform limits state atom).state.From empty := by
  cases hcalled : atom.called? with
  | some name =>
    rw [Library.perform_of_called hcalled]
    exact started.call name
  | none => exact started.pushes (library.perform_pushes limits state hcalled).2

/-- **The run**: so does every number of `Steps`. -/
theorem steps {n : Nat} (started : state.From empty) (steps : library.Steps limits n state next) :
    next.From empty := by
  induction steps with
  | zero => exact started
  | @succ n state popped last atom taken goes rest ih =>
    have hpopped := started.run (Script.popAtom .exec)
    rw [taken] at hpopped
    exact ih (hpopped.perform atom)

/-- So does the ending, `Ends`, also where the pending work is no code. -/
theorem ends {reason : StopReason} (started : state.From empty)
    (ends : library.Ends limits state reason next) : next.From empty := by
  have hpopped := started.run (Script.popAtom .exec)
  cases ends with
  | idle | exhausted | late => exact started
  | unpending pending failed =>
    rw [failed] at hpopped
    exact hpopped
  | @stopped atom popped reason taken stops =>
    rw [taken] at hpopped
    exact hpopped.perform atom

end From

end State

/-! ## Machines that have run programs -/

namespace Machine

variable {library : Library} {machine used fresh : Machine}

/-- **A run leaves a state that resets to the same empty state**, however `runTraced` ends. -/
theorem reset_runTraced {σ : Type} (machine : Machine) (code : Block) (inputs : List Value)
    (outputs : List String) (limits : Limits) (clock : Clock) (tracer : Tracer σ) (data : σ) :
    (machine.runTraced code inputs outputs limits clock tracer data).2.1.state.reset =
      machine.state.reset := by
  -- The invariant is that the stacks are those of the empty state the run starts from.
  have hempty : (machine.state.reset.withInputs inputs).From machine.state.reset := by
    refine ⟨?_, rfl⟩
    simp [State.reset, State.withInputs, Function.comp_def]
  rw [runTraced]
  cases hload :
    (machine.state.reset.withInputs inputs).push .exec (.code (.expr (.block code))) with
  | error fault =>
    simp only [load, hload]
    exact hempty.reset_eq
  | ok start =>
    simp only [load, hload]
    have hstart := hempty.did (State.did_of_push hload)
    obtain ⟨n, last, -, hsteps, hends⟩ := machine.library.proceed_ends limits clock tracer
      limits.stepLimit 0 start (tracer.emit (.runStart code inputs.length) data)
    exact ((hstart.steps hsteps).ends hends).reset_eq

/-- A machine that is `MadeOf` a library has the library, and its state resets to
`State.ofRegistry`. -/
theorem MadeOf.reset_eq (madeOf : machine.MadeOf library) :
    machine.library = library ∧ machine.state.reset = .ofRegistry library.registry := by
  induction madeOf with
  | fresh made =>
    rw [ofLibrary] at made
    cases hcheck : library.instructions.check library.registry with
    | error refusal =>
      rw [hcheck] at made
      cases made
    | ok =>
      rw [hcheck] at made
      cases made
      refine ⟨rfl, ?_⟩
      simp [State.reset, State.ofRegistry, Function.comp_def]
  | used _ code inputs outputs limits clock tracer data ih =>
    exact ⟨ih.1, (reset_runTraced _ code inputs outputs limits clock tracer data).trans ih.2⟩

/-- **Reusing a machine is invisible**. After any runs on it, whatever their programs, limits,
clocks, tracers and endings, a machine that is `MadeOf` a library runs every program as a fresh
machine of the same library does by the same clock: with the same report, the same final state and
the same events. -/
theorem runTraced_reused (library : Library) (used fresh : Machine)
    (history : used.MadeOf library) (created : ofLibrary library = .ok fresh) (code : Block)
    (inputs : List Value) (outputs : List String) (limits : Limits) (clock : Clock) :
    used.run code inputs outputs limits clock = fresh.run code inputs outputs limits clock ∧
      ∀ (σ : Type) (tracer : Tracer σ) (data : σ),
        used.runTraced code inputs outputs limits clock tracer data =
          fresh.runTraced code inputs outputs limits clock tracer data := by
  obtain ⟨hlibrary, hreset⟩ := history.reset_eq
  obtain ⟨hfresh, hempty⟩ := (MadeOf.fresh created).reset_eq
  -- A run looks at the library and at the empty state only.
  have hload : used.load code inputs = fresh.load code inputs := by
    rw [load, load, hreset, hempty]
  have hsame (σ : Type) (tracer : Tracer σ) (data : σ) :
      used.runTraced code inputs outputs limits clock tracer data =
        fresh.runTraced code inputs outputs limits clock tracer data := by
    simp only [runTraced, hload, hlibrary, hfresh]
  refine ⟨?_, hsame⟩
  rw [run, run, hsame]

/-- A library with one instruction, which changes a stack in every way, prints, and meets a missing
stack at last. -/
def messyLibrary : Library :=
  let body : Script Unit := do
    Script.push .int (.int 7)
    let value ← Script.yank .int 1
    Script.flush .int
    Script.shove .int 5 value
    Script.print "é" 9
    let _ ← Script.pop ⟨40⟩
  ⟨.core, ⟨[⟨"mess", [.int], [.int], 0, fun _ => body⟩]⟩⟩

/-- A fresh machine of this library. -/
def tidyMachine : Machine := ⟨messyLibrary, .ofRegistry .core⟩

/-- A program for it. -/
def messyCode : Block := [.literal (.int 1) .int, .input 0, .instr "mess" 0]

/-- The machine after two runs of the program, one that ended inside the instruction and one that
was cut off before it. -/
def messyMachine : Machine :=
  ((tidyMachine.run messyCode [.int 2] [] {} .still).2.run messyCode [.int 2] [] { stepLimit := 3 }
    .still).2

/-- The two runs leave items, inputs and pending work behind, and the next run does not see them. -/
theorem runTraced_reused_messyMachine :
    messyMachine.MadeOf messyLibrary ∧ ofLibrary messyLibrary = .ok tidyMachine ∧
      (tidyMachine.run messyCode [.int 2] [] {} .still).1.reason =
        .typeError (.operation (.missingStack ⟨40⟩)) ∧
      messyMachine.state.stack? .int = some [.int 1] ∧ messyMachine.state.depth .exec = 2 ∧
      ∀ code inputs outputs limits clock,
        messyMachine.run code inputs outputs limits clock =
          tidyMachine.run code inputs outputs limits clock := by
  have hcreated : ofLibrary messyLibrary = .ok tidyMachine := rfl
  have hused : messyMachine.MadeOf messyLibrary :=
    .used (.used (.fresh hcreated) _ _ [] _ .still .silent ()) _ _ [] _ .still .silent ()
  refine ⟨hused, hcreated, rfl, rfl, rfl, fun code inputs outputs limits clock => ?_⟩
  exact (runTraced_reused messyLibrary messyMachine tidyMachine hused hcreated code inputs outputs
    limits clock).1

end Machine

end PushMachine
