import PushMachine.Profiler
import PushMachine.Proofs.Tracing

/-! # Profiling

A profiler opens a scope when a call starts and closes it when the call ends. Whatever a run does,
each call is reported by a start and by an end with the same step, and the next one starts after
that (`Event.ofCall`). So the scopes are balanced (`Profiler.Balanced`): along the way at most one
is open, an end closes the scope of its own call, and none is open after the run. This goes from one
call (`Profiler.balanced_ofCall_append`) to the dispatches of a run (`Profiler.balanced_events`),
and from there to any number of runs. -/

namespace PushMachine

/-! ## Dispatches that give up -/

namespace Dispatch

/-- **Whether a dispatch gives up**: its atom calls an instruction of the library, whose `attempt`
fails by giving up. -/
def reverts (library : Library) (limits : Limits) (dispatch : Dispatch) : Bool :=
  match dispatch.atom.called?.bind library.instructions.get? with
  | some instruction =>
    match (instruction.attempt limits.toSizeCaps dispatch.state).1 with
    | .error .revert => true
    | _ => false
  | none => false

/-- It is then reported so: `outcome?` is `.reverted`. -/
theorem reverts_iff (library : Library) (limits : Limits) (dispatch : Dispatch) :
    dispatch.reverts library limits = true ↔
      dispatch.outcome? library limits = some .reverted := by
  rw [reverts, outcome?]
  -- What is reported of a call is what its attempt came to, unless it grew too much.
  cases hcalled : dispatch.atom.called? with
  | none =>
    have hcall := (library.perform_pushes limits dispatch.state hcalled).1
    rw [effect, hcall]
    simp
  | some name =>
    rw [effect, Library.perform_of_called hcalled, Library.call, Option.bind_some]
    cases hfound : library.instructions.get? name with
    | none => simp
    | some instruction =>
      simp only [Instruction.attempt]
      rcases heval : instruction.eval limits.toSizeCaps dispatch.state.openTransaction with
        ⟨fault | done, after⟩
      · cases fault <;> simp
      · simp only
        split <;> simp

end Dispatch

/-! ## Balanced events -/

namespace Profiler

variable {profiler : Profiler} {event : Event} {events : List Event}

/-- The profiler after some events: `handle` folded over them. -/
def after (profiler : Profiler) (events : List Event) : Profiler :=
  events.foldl (fun profiler event => handle event profiler) profiler

/-- **Events that balance** the scopes of a profiler. -/
structure Balanced (profiler : Profiler) (events : List Event) : Prop where
  /-- Along the way at most one scope is open: `scopes.length ≤ 1` after every `told`. -/
  single : ∀ told rest, events = told ++ rest → (profiler.after told).scopes.length ≤ 1
  /-- Where a call ends with `.exit`, the open scope is that of its step. -/
  inStep : ∀ told name step outcome rest, events = told ++ .exit name step outcome :: rest →
    ∃ label, (profiler.after told).scopes = [⟨step, label⟩]
  /-- At the end no scope is open. -/
  idle : (profiler.after events).scopes = []

/-- No events keep a profiler with `scopes = []` as it is. -/
theorem balanced_nil (idle : profiler.scopes = []) : profiler.Balanced [] := by
  refine ⟨fun told rest hsplit => ?_, fun told name step outcome rest hsplit => ?_, idle⟩
  · obtain ⟨rfl, -⟩ := List.append_eq_nil_iff.mp hsplit.symm
    show profiler.scopes.length ≤ 1
    simp [idle]
  · simp at hsplit

/-- **One event more**, in front of the others. -/
theorem Balanced.cons (single : profiler.scopes.length ≤ 1)
    (inStep : ∀ name step outcome, event = .exit name step outcome →
      ∃ label, profiler.scopes = [⟨step, label⟩])
    (balanced : (handle event profiler).Balanced events) : profiler.Balanced (event :: events) := by
  refine ⟨fun told rest hsplit => ?_, fun told name step outcome rest hsplit => ?_, balanced.idle⟩
  · cases told with
    | nil => exact single
    | cons head told =>
      obtain ⟨rfl, hrest⟩ := List.cons.inj hsplit
      exact balanced.single told rest hrest
  · cases told with
    | nil => exact inStep name step outcome (List.cons.inj hsplit).1
    | cons head told =>
      obtain ⟨rfl, hrest⟩ := List.cons.inj hsplit
      exact balanced.inStep told name step outcome rest hrest

/-- The end of a call, `.exit`, where the scope of its step is open. -/
theorem Balanced.cons_exit {name label : String} {step : Nat} {outcome : Outcome}
    (opened : profiler.scopes = [⟨step, label⟩]) (balanced : (profiler.exit step).Balanced events) :
    profiler.Balanced (.exit name step outcome :: events) := by
  refine .cons (by simp [opened]) (fun other number ending heq => ?_) balanced
  cases heq
  exact ⟨label, opened⟩

/-! ## The events of a run -/

/-- A profiler wants to know all of a call: `mask` keeps `Event.ofCall` whole. -/
theorem filter_ofCall (number : Nat) (name : String) (outcome : Outcome) :
    (Event.ofCall number name outcome).filter mask.wants = Event.ofCall number name outcome := by
  by_cases hreverted : outcome = .reverted <;>
    simp [Event.ofCall, hreverted, mask, EventMask.wants]

section Runs

variable (idle : profiler.scopes = [])
include idle

/-- A call leaves no scope open, and is counted in `reverts` if it gave up. -/
theorem after_ofCall (number : Nat) (name : String) (outcome : Outcome) :
    profiler.after (Event.ofCall number name outcome) =
      { profiler with reverts := profiler.reverts + if outcome = .reverted then 1 else 0 } := by
  by_cases hreverted : outcome = .reverted <;>
    simp [after, Event.ofCall, hreverted, handle, enter, revert, exit, idle]

/-- **The step**: the end of a call closes the scope that its start opened, so that `Event.ofCall`
balances in front of what does. -/
theorem balanced_ofCall_append (number : Nat) (name : String) (outcome : Outcome)
    (later : (profiler.after (Event.ofCall number name outcome)).Balanced events) :
    profiler.Balanced (Event.ofCall number name outcome ++ events) := by
  have hopened : (profiler.enter name number).scopes = [⟨number, profiler.label name⟩] := by
    simp [enter, idle]
  rw [Event.ofCall] at later ⊢
  refine .cons (by simp [idle]) (by simp) ?_
  by_cases hreverted : outcome = .reverted
  · -- Giving up is told in between, and leaves the scope open.
    rw [if_pos hreverted] at later ⊢
    refine .cons (Nat.le_of_eq (congrArg List.length hopened)) (by simp) ?_
    exact .cons_exit hopened later
  · rw [if_neg hreverted] at later ⊢
    exact .cons_exit hopened later

/-- **The run**: the events of dispatches balance the scopes, and those that `reverts` are counted.
-/
theorem balanced_events (library : Library) (limits : Limits) (dispatches : List Dispatch)
    (number : Nat) :
    let told := (Dispatch.events library limits dispatches number).filter mask.wants
    profiler.Balanced told ∧ (profiler.after told).reverts =
      profiler.reverts + dispatches.countP (Dispatch.reverts library limits) := by
  induction dispatches generalizing profiler number with
  | nil => exact ⟨balanced_nil idle, rfl⟩
  | cons dispatch dispatches ih =>
    intro told
    rcases dispatch.report library limits with ⟨hcall, -⟩ | ⟨name, outcome, hcalled, hcall, -⟩
    · -- The atom that is taken is not told, and there is nothing else to tell.
      have houtcome : dispatch.outcome? library limits = none := by
        rw [Dispatch.outcome?, hcall]
        rfl
      have hquiet : ¬dispatch.reverts library limits = true := by
        rw [Dispatch.reverts_iff, houtcome]
        simp
      have htold : told = (Dispatch.events library limits dispatches (number + 1)).filter
          mask.wants := by
        simp only [told, Dispatch.events_cons, houtcome, Event.ofStep_none, List.filter_append]
        rfl
      rw [htold, List.countP_cons_of_neg hquiet]
      exact ih idle (number + 1)
    · have houtcome : dispatch.outcome? library limits = some outcome := by
        rw [Dispatch.outcome?, hcall]
        rfl
      have hcounts : dispatch.reverts library limits = true ↔ outcome = .reverted := by
        rw [Dispatch.reverts_iff, houtcome, Option.some_inj]
      have htold : told = Event.ofCall number name outcome ++
          (Dispatch.events library limits dispatches (number + 1)).filter mask.wants := by
        simp only [told, Dispatch.events_cons, houtcome, Event.ofStep_some number outcome hcalled,
          List.filter_append]
        rw [List.filter_cons_of_neg Bool.false_ne_true, filter_ofCall]
      have hafter := after_ofCall idle number name outcome
      have hidle : (profiler.after (Event.ofCall number name outcome)).scopes = [] := by
        rw [hafter]
        exact idle
      obtain ⟨hbalanced, hcount⟩ := ih hidle (number + 1)
      rw [htold]
      refine ⟨balanced_ofCall_append idle number name outcome hbalanced, ?_⟩
      rw [after, List.foldl_append]
      refine hcount.trans ?_
      rw [hafter, List.countP_cons]
      simp only [hcounts]
      omega

end Runs

end Profiler

/-! ## Runs one after another -/

/-- A run that is to be profiled. -/
structure Task where
  /-- The machine, which may have run other programs before. -/
  machine : Machine
  /-- The program. -/
  code : Block
  /-- The inputs. -/
  inputs : List Value := []
  /-- The outputs to report. -/
  outputs : List String := []
  /-- The limits. -/
  limits : Limits := {}
  /-- The clock. -/
  clock : Clock := .still

namespace Task

/-- The profiler after the run, which it watched with its own `mask`. -/
def profile (task : Task) (profiler : Profiler) : Profiler :=
  (task.machine.runTraced task.code task.inputs task.outputs task.limits task.clock
    Profiler.tracer profiler).2.2

/-- The events of the run that a profiler is told: those that its `mask` wants. -/
def told (task : Task) : List Event :=
  (task.machine.runTraced task.code task.inputs task.outputs task.limits task.clock
    (.recorder Profiler.mask) []).2.2.reverse

/-- Number of dispatches of the run that `reverts`. -/
def revertCount (task : Task) : Nat :=
  (task.machine.dispatches task.limits task.clock task.code task.inputs).countP
    (Dispatch.reverts task.machine.library task.limits)

/-- The profiler handles what it is told: `task.profile` is `after task.told`. -/
theorem profile_eq (task : Task) (profiler : Profiler) :
    task.profile profiler = profiler.after task.told := by
  rw [profile, told, Machine.runTraced_eq, Machine.runTraced_eq, Tracer.reverse_deliver_recorder]
  rfl

/-- It is told of the dispatches only, and not of the start and the end. -/
theorem told_eq (task : Task) :
    task.told = (Dispatch.events task.machine.library task.limits
      (task.machine.dispatches task.limits task.clock task.code task.inputs) 1).filter
        Profiler.mask.wants := by
  rw [told, Machine.runTraced_eq, Tracer.reverse_deliver_recorder,
    List.filter_cons_of_neg Bool.false_ne_true, List.filter_append]
  exact List.append_nil _

/-- **A run balances** the scopes of a profiler with `scopes = []`, and counts what gave up. -/
theorem balanced_told (task : Task) {profiler : Profiler} (idle : profiler.scopes = []) :
    profiler.Balanced task.told ∧
      (task.profile profiler).reverts = profiler.reverts + task.revertCount := by
  rw [profile_eq, told_eq]
  exact Profiler.balanced_events idle _ _ _ 1

end Task

namespace Profiler

/-- Any number of runs leave no scope open, and count what gave up in all of them. -/
theorem foldl_profile {profiler : Profiler} (idle : profiler.scopes = []) (tasks : List Task) :
    let after := tasks.foldl (fun profiler task => task.profile profiler) profiler
    after.scopes = [] ∧ after.reverts = profiler.reverts + (tasks.map Task.revertCount).sum := by
  induction tasks generalizing profiler with
  | nil => exact ⟨idle, rfl⟩
  | cons task tasks ih =>
    obtain ⟨hbalanced, hcount⟩ := task.balanced_told idle
    have hidle : (task.profile profiler).scopes = [] := by
      rw [task.profile_eq]
      exact hbalanced.idle
    obtain ⟨hscopes, hreverts⟩ := ih hidle
    refine ⟨hscopes, hreverts.trans ?_⟩
    rw [hcount, List.map_cons, List.sum_cons, Nat.add_assoc]

/-- **Profiling scopes balance**. After any runs, whatever their machines, programs, inputs, limits,
clocks and endings, a profiler with `scopes = []` has none again, and one more run is `Balanced`:
while the profiler is told of the run, at most one scope is open, and every call that ends is that
of the open scope. Each run adds to the count exactly its dispatches that gave up. -/
theorem scopes_balance (profiler : Profiler) (idle : profiler.scopes = [])
    (earlier : List Task) (task : Task) :
    let before := earlier.foldl (fun profiler task => task.profile profiler) profiler
    before.scopes = [] ∧
      before.reverts = profiler.reverts + (earlier.map Task.revertCount).sum ∧
      task.profile before = before.after task.told ∧ before.Balanced task.told ∧
      (task.profile before).scopes = [] ∧
      (task.profile before).reverts = before.reverts + task.revertCount := by
  intro before
  obtain ⟨hscopes, hreverts⟩ := foldl_profile idle earlier
  obtain ⟨hbalanced, hcount⟩ := task.balanced_told hscopes
  refine ⟨hscopes, hreverts, task.profile_eq before, hbalanced, ?_, hcount⟩
  rw [task.profile_eq before]
  exact hbalanced.idle

/-- A program that gives up once is cut off after that, and the next time ends inside of a call. -/
theorem scopes_balance_overcopying :
    let task : Task :=
      { machine := .shufflingMachine, code := Machine.overcopyingCode
        limits := { growthCap := 2 } }
    let cut : Task := { task with limits := { stepLimit := 3 } }
    let profiler : Profiler := { labelling := .byStack, reverts := 3 }
    profiler.scopes = [] ∧ cut.told.length = 3 ∧ task.told.length = 5 ∧
      (task.profile (cut.profile profiler)).scopes = [] ∧
      (task.profile (cut.profile profiler)).reverts = 5 := by
  intro task cut profiler
  obtain ⟨-, hbefore, -, -, hscopes, hreverts⟩ := scopes_balance profiler rfl [cut] task
  have hcut : cut.revertCount = 1 := by decide +kernel
  have htask : task.revertCount = 1 := by decide +kernel
  refine ⟨rfl, by decide +kernel, by decide +kernel, hscopes, hreverts.trans ?_⟩
  rw [hbefore, htask, List.map_singleton, hcut]
  rfl

end Profiler

end PushMachine
