import PushMachine.Proofs.Arguments
import PushMachine.Proofs.StoredCode

/-! # Computations

Code that computes takes values from the stacks and leaves other values there, in a number of steps
that is known, whatever else lies on the stacks and whatever work waits behind (`Library.Computes`).
Computations are put together: one after the other (`Computes.append`), and above values that they
leave alone (`Computes.frame`). Literals, inputs and calls are the pieces, each with one rule.

A whole program that computes runs to its end. How many steps it takes and what it leaves is then
known before it runs (`Machine.finished_of_computes`). -/

namespace PushMachine

/-- An expression for an instruction, `set.toExpr name`, calls it, whatever the set records of it.
-/
theorem InstructionSet.called?_toExpr (set : InstructionSet) (name : String) :
    (Atom.expr (set.toExpr name)).called? = some name := by
  rw [toExpr_eq]
  rfl

/-! ## Configurations with code in front -/

/-- Values beside the pending work: none of them is for `.exec`. -/
def Beside (values : List (StackId × Value)) : Prop := ∀ entry ∈ values, entry.1 ≠ .exec

@[simp]
theorem beside_nil : Beside [] := List.forall_mem_nil _

@[simp]
theorem beside_cons {id : StackId} {value : Value} {values : List (StackId × Value)} :
    Beside ((id, value) :: values) ↔ id ≠ .exec ∧ Beside values :=
  List.forall_mem_cons

@[simp]
theorem beside_append {lower upper : List (StackId × Value)} :
    Beside (lower ++ upper) ↔ Beside lower ∧ Beside upper :=
  List.forall_mem_append

namespace Config

variable {config : Config} {id : StackId} {value : Value} {values : List (StackId × Value)}

/-- The configuration with `code` in front of the pending work. -/
def ahead (config : Config) (code : Block) : Config :=
  ⟨(code.map fun e => .code (.expr e)) ++ config.pending, config.rest⟩

theorem ahead_append (config : Config) (first second : Block) :
    config.ahead (first ++ second) = (config.ahead second).ahead first := by
  simp only [ahead, List.map_append, List.append_assoc]

theorem inputs_topped (id : StackId) (value : Value) :
    (config.topped id value).rest.inputs = config.rest.inputs := by
  rw [topped, setStack]
  split <;> rfl

theorem stdout_topped (id : StackId) (value : Value) :
    (config.topped id value).rest.stdout = config.rest.stdout := by
  rw [topped, setStack]
  split <;> rfl

theorem stdoutLength_topped (id : StackId) (value : Value) :
    (config.topped id value).rest.stdoutLength = config.rest.stdoutLength := by
  rw [topped, setStack]
  split <;> rfl

/-- A value beside the pending work does not meet the code in front of it: `topped` commutes with
`ahead`. -/
theorem topped_ahead (hne : id ≠ .exec) (value : Value) (code : Block) :
    (config.ahead code).topped id value = (config.topped id value).ahead code := by
  simp only [topped, setStack_of_ne hne, stack?_of_ne hne, ahead]

theorem holding_ahead (beside : Beside values) (code : Block) :
    (config.ahead code).holding values = (config.holding values).ahead code := by
  induction values generalizing config with
  | nil => rfl
  | cons entry rest ih =>
    obtain ⟨hentry, hrest⟩ := beside_cons.mp beside
    show ((config.ahead code).topped entry.1 entry.2).holding rest = _
    rw [topped_ahead hentry, ih hrest]
    rfl

/-- Values on top of other values: `holding` distributes over `++`. -/
theorem holding_append (config : Config) (lower upper : List (StackId × Value)) :
    config.holding (lower ++ upper) = (config.holding lower).holding upper :=
  List.foldl_append

/-- **A configuration of a run**: every type of `registry` has its stack, and the `inputs` are
given. -/
structure Hosts (config : Config) (registry : Registry) (inputs : List Value) : Prop where
  /-- Every type has its stack. -/
  has : ∀ {id : StackId}, registry.contains id = true → config.Has id
  /-- The inputs. -/
  inputs_eq : config.rest.inputs = inputs

namespace Hosts

variable {registry : Registry} {inputs : List Value}

theorem ahead (hosts : config.Hosts registry inputs) (code : Block) :
    (config.ahead code).Hosts registry inputs := by
  refine ⟨fun {id} registered => ?_, hosts.inputs_eq⟩
  by_cases hid : id = .exec
  · subst hid
    exact ⟨_, rfl⟩
  · obtain ⟨items, found⟩ := hosts.has registered
    rw [stack?_of_ne hid] at found
    exact ⟨items, (stack?_of_ne hid).trans found⟩

theorem topped (hosts : config.Hosts registry inputs) (id : StackId) (value : Value) :
    (config.topped id value).Hosts registry inputs :=
  ⟨fun registered => (hosts.has registered).topped id value,
    (inputs_topped id value).trans hosts.inputs_eq⟩

theorem holding (hosts : config.Hosts registry inputs) (values : List (StackId × Value)) :
    (config.holding values).Hosts registry inputs := by
  induction values generalizing config with
  | nil => exact hosts
  | cons entry rest ih => exact ih (hosts.topped entry.1 entry.2)

end Hosts

end Config

/-! ## Computing -/

namespace Library

/-- **Code computes**: above any values and in front of any work it takes the values `before` from
the stacks and leaves the values `after`, in `n` steps. -/
structure Computes (library : Library) (limits : Limits) (inputs : List Value) (n : Nat)
    (code : Block) (before after : List (StackId × Value)) : Prop where
  /-- What it takes is `Beside` the pending work. -/
  taken : Beside before
  /-- So is what it leaves. -/
  given : Beside after
  /-- It leads there. -/
  leads : ∀ config : Config, config.Hosts library.registry inputs →
    library.LeadsIn limits (·.From (.ofRegistry library.registry)) n
      ((config.holding before).ahead code) (config.holding after)

variable {library : Library} {limits : Limits} {inputs : List Value} {n m : Nat}
  {code first second : Block} {before middle after : List (StackId × Value)}

/-- No code computes nothing: `before` stays as it is. -/
theorem Computes.nil (taken : Beside before) : library.Computes limits inputs 0 [] before before :=
  ⟨taken, taken, fun _ _ state _ shown => ⟨state, .zero, shown⟩⟩

/-- **One after the other**: `first ++ second` computes, and the steps `n + m` add up. -/
theorem Computes.append (one : library.Computes limits inputs n first before middle)
    (other : library.Computes limits inputs m second middle after) :
    library.Computes limits inputs (n + m) (first ++ second) before after := by
  refine ⟨one.taken, other.given, fun config hosts => ?_⟩
  -- While the first code runs, the second is part of the work that waits.
  have hone := one.leads (config.ahead second) (hosts.ahead second)
  rw [Config.holding_ahead one.taken, Config.holding_ahead one.given,
    ← Config.ahead_append] at hone
  exact hone.trans (library.realm_of_registry limits) (other.leads config hosts)

/-- **Above other values**, which stay where they are. -/
theorem Computes.frame (computes : library.Computes limits inputs n code before after)
    (values : List (StackId × Value)) (beside : Beside values) :
    library.Computes limits inputs n code (values ++ before) (values ++ after) := by
  refine ⟨beside_append.mpr ⟨beside, computes.taken⟩, beside_append.mpr ⟨beside, computes.given⟩,
    fun config hosts => ?_⟩
  rw [Config.holding_append, Config.holding_append]
  exact computes.leads _ (hosts.holding values)

/-- **Code that unfolds**: where it leads to other code that computes, it computes the same. -/
theorem Computes.unfold (taken : Beside before)
    (unfolds : ∀ config : Config, config.Hosts library.registry inputs →
      library.LeadsIn limits (·.From (.ofRegistry library.registry)) n
        ((config.holding before).ahead first) ((config.holding middle).ahead second))
    (computes : library.Computes limits inputs m second middle after) :
    library.Computes limits inputs (n + m) first before after :=
  ⟨taken, computes.given, fun config hosts =>
    (unfolds config hosts).trans (library.realm_of_registry limits) (computes.leads config hosts)⟩

/-- A block unfolds to its parts, in one step more: `.block code` computes what `code` does. -/
theorem Computes.block (computes : library.Computes limits inputs n code before after) :
    library.Computes limits inputs (1 + n) [.block code] before after :=
  .unfold computes.taken
    (fun _ _ => leadsIn_block (library.realm_of_registry limits) code _ _) computes

section Pieces

variable {id : StackId} {value : Value} {type : StackType}

/-- A literal computes its value, on the stack `id`. -/
theorem computes_literal (registered : library.registry.get? id = some type) (hid : id ≠ .exec)
    (accepted : type.accepts value = true) :
    library.Computes limits inputs 1 [.literal value id] [] [(id, value)] := by
  refine ⟨beside_nil, by simpa using hid, fun config hosts => ?_⟩
  have hcontains : library.registry.contains id = true := by
    rw [Registry.contains, registered]
    rfl
  obtain ⟨items, found⟩ := hosts.has hcontains
  have hdata : config.rest.stack? id = some items := (Config.stack?_of_ne hid).symm.trans found
  have hleads := leadsIn_literal (library.realm_of_registry limits) registered hid accepted hdata
    config.pending
  rw [← Config.setStack_of_ne hid, ← Config.topped_of_found found] at hleads
  exact hleads

/-- An input is made a literal first, and computes the same: `inputs[index]?`. -/
theorem computes_input {index : Nat} (given : inputs[index]? = some value)
    (plain : ∀ atom, value ≠ .code atom)
    (literal : library.registry.literal value = .ok (.literal value id))
    (registered : library.registry.get? id = some type) (hid : id ≠ .exec)
    (accepted : type.accepts value = true) :
    library.Computes limits inputs 2 [.input index] [] [(id, value)] := by
  -- The first step makes the literal pending, and the other one is its own.
  refine .unfold beside_nil (n := 1) (fun config hosts => ?_)
    (computes_literal registered hid accepted)
  refine leadsIn_of_perform (library.realm_of_registry limits) fun state _ shown => ?_
  have hinputs : state.inputs[index]? = some value := by
    have hsame : state.settled.inputs = config.rest.inputs := congrArg State.inputs shown.rest
    rw [show state.inputs = state.settled.inputs from rfl, hsame, hosts.inputs_eq, given]
  have hpending : (Config.mk config.pending config.rest).stack? .exec = some config.pending := rfl
  obtain ⟨next, hpush, hnext, -⟩ := shown.push hpending (.code (.expr (.literal value id)))
  have hperform : library.perform limits state (.expr (.input index)) = { state := next } := by
    rw [perform, fetchInput, hinputs]
    split
    next hnone => cases hnone
    next atom hcode => exact absurd (Option.some.inj hcode) (plain atom)
    next found _ hfound =>
      obtain rfl := Option.some.inj hfound
      rw [literal]
      simp only [hpush]
      rfl
  rw [hperform]
  exact ⟨rfl, hnext⟩

/-- **A call computes** what its script `Does` to the values that it reads. -/
theorem computes_call {e : Expr} {name : String} {instruction : Instruction} {pushes : Nat}
    (called : (Atom.expr e).called? = some name)
    (found : library.instructions.get? name = some instruction)
    (registered : ∀ id ∈ instruction.inputs, library.registry.contains id = true)
    (reads : instruction.inputs.Perm (before.map Prod.fst)) (taken : Beside before)
    (given : Beside after) (fits : pushes ≤ limits.growthCap)
    (does : ∀ config : Config, config.Hosts library.registry inputs →
      (instruction.body limits.toSizeCaps).Does (config.holding before) () (config.holding after)
        pushes) :
    library.Computes limits inputs 1 [e] before after := by
  refine ⟨taken, given, fun config hosts => ?_⟩
  have hready : (config.holding before).Readies instruction := by
    refine Config.readies_holding fun id hid => ?_
    obtain ⟨items, hitems⟩ := hosts.has (registered id hid)
    exact ⟨items, hitems, reads.count_eq _ ▸ Nat.le_add_left _ _⟩
  exact leadsIn_call (library.realm_of_registry limits) called found hready (does config hosts) fits

end Pieces

/-! ## Whole runs -/

/-- **A run that comes to an end**: where the `Steps` lead to a state without pending work, as many
are allowed and the clock lasts for them, the run ends normally there. -/
theorem Steps.proceed_of_done {σ : Type} {remaining : Nat} {state last : State}
    (walk : library.Steps limits n state last) (idle : last.depth .exec = 0)
    (enough : n ≤ remaining) {clock : Clock} {steps : Nat} (lasts : clock.Lasts limits steps n)
    (tracer : Tracer σ) (data : σ) :
    let ending := library.proceed limits clock tracer remaining steps state data
    ending.reason = .normal ∧ ending.steps = steps + n ∧ ending.state = last := by
  induction walk generalizing remaining steps data with
  | zero =>
    rw [proceed_of_idle idle]
    exact ⟨rfl, rfl, rfl⟩
  | succ taken goes _ ih =>
    obtain ⟨more, rfl⟩ : ∃ more, remaining = more + 1 := ⟨remaining - 1, by omega⟩
    rw [proceed_of_going (State.depth_ne_zero_of_taken taken) lasts.now taken goes]
    obtain ⟨hreason, hsteps, hlast⟩ := ih idle (Nat.le_of_succ_le_succ enough) lasts.next _
    exact ⟨hreason, by rw [hsteps]; omega, hlast⟩

/-- The configuration without pending work and with empty stacks, those of `State.ofRegistry`. -/
def blank (library : Library) (inputs : List Value) : Config :=
  ⟨[], (State.ofRegistry library.registry).withInputs inputs⟩

/-- Every stack of `blank` is empty. -/
theorem stack?_blank {id : StackId} {items : List Value}
    (found : (library.blank inputs).stack? id = some items) : items = [] := by
  by_cases hid : id = .exec
  · subst hid
    cases found
    rfl
  · rw [Config.stack?_of_ne hid] at found
    obtain ⟨type, -, rfl⟩ :=
      Option.map_eq_some_iff.mp ((State.stack?_ofRegistry library.registry id).symm.trans found)
    rfl

theorem blank_hosts (library : Library) (inputs : List Value) :
    (library.blank inputs).Hosts library.registry inputs := by
  refine ⟨fun {id} registered => ?_, rfl⟩
  by_cases hid : id = .exec
  · subst hid
    exact ⟨[], rfl⟩
  · obtain ⟨type, htype⟩ := Registry.exists_of_contains registered
    refine ⟨[], (Config.stack?_of_ne hid).trans ?_⟩
    show (State.ofRegistry library.registry).stack? id = some []
    rw [State.stack?_ofRegistry, htype]
    rfl

end Library

namespace Machine

/-- **A run that is done**: it ended normally after `steps` steps and printed `text`, one stack
holds `items`, and all other stacks are empty. -/
structure Finished (ran : RunReport × Machine) (steps : Nat) (text : String) (id : StackId)
    (items : List Value) : Prop where
  /-- It ended normally. -/
  reason : ran.1.reason = .normal
  /-- The number of steps. -/
  steps_eq : ran.1.steps = steps
  /-- The printed text. -/
  stdout_eq : ran.1.stdout = text
  /-- The items of the stack. -/
  stack_eq : ran.2.state.stack? id = some items
  /-- The other stacks are empty. -/
  others : ∀ other, other ≠ id → ∀ left, ran.2.state.stack? other = some left → left = []

variable {library : Library} {machine : Machine} {limits : Limits} {inputs : List Value} {n : Nat}
  {code : Block} {config : Config} {id : StackId} {value : Value}

/-- **A program that leads to an end** (`LeadsIn`) is run there, with one step more for the block
that it is. -/
theorem finished_of_leadsIn (madeOf : machine.MadeOf library)
    (exec : library.registry.contains .exec = true)
    (leads : library.LeadsIn limits (·.From (.ofRegistry library.registry)) n
      ((library.blank inputs).ahead code) (config.topped id value))
    (hid : id ≠ .exec) (has : config.Has id)
    (empty : ∀ other left, config.stack? other = some left → left = [])
    (enough : n + 1 ≤ limits.stepLimit) (outputs : List String) {clock : Clock}
    (lasts : clock.Lasts limits 0 (n + 1)) :
    Finished (machine.run code inputs outputs limits clock) (n + 1) config.rest.stdout id
      [value] := by
  obtain ⟨hlibrary, hreset⟩ := madeOf.reset_eq
  have reigns := library.realm_of_registry limits
  -- The empty state is in the blank configuration, and the program goes in front of it.
  have hempty : (library.blank inputs).rest.stack? .exec = some [] := by
    obtain ⟨type, htype⟩ := Registry.exists_of_contains exec
    show (State.ofRegistry library.registry).stack? .exec = some []
    rw [State.stack?_ofRegistry, htype]
    rfl
  have hblank : (library.blank inputs).rest.Shows (library.blank inputs) :=
    ⟨hempty, State.setStack_self hempty⟩
  have hfrom : (library.blank inputs).rest.From (.ofRegistry library.registry) := by
    refine ⟨?_, rfl⟩
    simp [Library.blank, State.reset, State.withInputs, State.ofRegistry, Function.comp_def]
  have hidle : (library.blank inputs).stack? .exec = some [] := rfl
  obtain ⟨start, hpush, hstart, -⟩ := hblank.push hidle (.code (.expr (.block code)))
  have hload : machine.load code inputs = ((library.blank inputs).rest, .ok start) := by
    simp only [load, hreset]
    exact congrArg _ hpush
  obtain ⟨last, hsteps, hlast⟩ := (Library.leadsIn_block reigns code [] _).trans reigns leads
    start (hfrom.did (State.did_of_push hpush)) hstart
  -- No work is left where it leads, so the run ends there.
  have hothers : ∀ other, other ≠ id → ∀ left, last.stack? other = some left → left = [] := by
    intro other hother left hleft
    rw [hlast.stack?_eq, Config.stack?_topped_of_ne hother] at hleft
    exact empty other left hleft
  have hnone : last.depth .exec = 0 := by
    rw [State.depth, hlast.pending, hothers .exec (Ne.symm hid) _ hlast.pending]
    rfl
  have hallowed : 1 + n ≤ limits.stepLimit := by omega
  obtain ⟨hreason, hcount, hstate⟩ := hsteps.proceed_of_done hnone hallowed
    (lasts.mono (Nat.add_comm 1 n).le) .silent ()
  have hran := run_eq_of_load hload outputs limits clock
  simp only [hlibrary, hstate] at hran
  rw [hran]
  obtain ⟨items, found⟩ := has
  obtain rfl := empty id items found
  refine ⟨hreason, hcount.trans (by omega), ?_, ?_, hothers⟩
  · have hrest : last.settled.stdout = (config.topped id value).rest.stdout :=
      congrArg State.stdout hlast.rest
    exact hrest.trans (Config.stdout_topped id value)
  · exact (hlast.stack?_eq id).trans (Config.stack?_topped_self found value)

/-- **A program that computes one value** (`Computes`) leaves it alone on its stack, and prints
nothing. -/
theorem finished_of_computes (madeOf : machine.MadeOf library)
    (exec : library.registry.contains .exec = true)
    (registered : library.registry.contains id = true)
    (computes : library.Computes limits inputs n code [] [(id, value)])
    (enough : n + 1 ≤ limits.stepLimit) (outputs : List String) {clock : Clock}
    (lasts : clock.Lasts limits 0 (n + 1)) :
    Finished (machine.run code inputs outputs limits clock) (n + 1) "" id [value] := by
  have hosts := library.blank_hosts inputs
  exact finished_of_leadsIn madeOf exec (computes.leads _ hosts)
    (computes.given _ List.mem_cons_self) (hosts.has registered)
    (fun _ _ => Library.stack?_blank) enough outputs lasts

end Machine

end PushMachine
