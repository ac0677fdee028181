import PushMachine.Proofs.CodeSize
import PushMachine.Proofs.Grouping
import PushMachine.Proofs.Reuse
import PushMachine.Proofs.StackGrowth

/-! # Pending work and the rest

A loop of the machine is no loop of its own: it leaves work to do, and the work calls the loop
again. What such work comes to is told by configurations, which divide a state into its pending work
and the rest. `Library.Leads` says that the states of one configuration come to another one in some
steps and without ending the run, and `Library.LeadsIn` says in how many. Each kind of atom has one
rule for it. The rule for calls rests on what the script of the instruction does to the
configuration (`Script.Does`).

A body is closed if it does something to the rest of every state and leaves the work behind it as it
was (`Library.ClosedBody`). Which states these are is left open: a realm holds with every state all
that follow it, and every state with the stacks of the library's types is in one. -/

namespace PushMachine

/-! ## Stacks of states -/

namespace State

variable {state : State} {id other : StackId}

/-- What `modifyStack` does to a stack that exists. -/
theorem modifyStack_of_found {items : List Value} (found : state.stack? id = some items)
    (change : List Value → List Value) :
    state.modifyStack id change = state.setStack id (change items) := by
  rw [modifyStack, found]

/-- Replacing a stack with `setStack` keeps every stack there. -/
theorem exists_stack?_setStack {items : List Value} (found : state.stack? other = some items)
    (id : StackId) (new : List Value) :
    ∃ kept, (state.setStack id new).stack? other = some kept := by
  by_cases h : other = id
  · subst h
    exact ⟨new, stack?_setStack_self found new⟩
  · exact ⟨items, (stack?_setStack_of_ne h new).trans found⟩

/-- Changing a stack with `modifyStack` leaves the others alone. -/
theorem stack?_modifyStack_of_ne (h : other ≠ id) (change : List Value → List Value) :
    (state.modifyStack id change).stack? other = state.stack? other := by
  rw [modifyStack]
  split
  · exact stack?_setStack_of_ne h _
  · rfl

/-- One stack can be changed with `modifyStack` before or after another is replaced. -/
theorem modifyStack_setStack_of_ne (h : other ≠ id) (items : List Value)
    (change : List Value → List Value) :
    (state.setStack id items).modifyStack other change =
      (state.modifyStack other change).setStack id items := by
  rw [modifyStack, modifyStack, stack?_setStack_of_ne h]
  cases state.stack? other with
  | none => rfl
  | some found => exact setStack_comm h

/-- A changed stack that exists did exist before. -/
theorem exists_of_modifyStack {change : List Value → List Value} {items : List Value}
    (h : (state.modifyStack id change).stack? id = some items) :
    ∃ found, state.stack? id = some found := by
  cases hfound : state.stack? id with
  | some found => exact ⟨found, rfl⟩
  | none =>
    rw [modifyStack, hfound] at h
    exact absurd (h.symm.trans hfound) (Option.some_ne_none items)

/-- Where an atom is taken there is pending work: the depth of `.exec` is not zero. -/
theorem depth_ne_zero_of_taken {popped : State} {atom : Atom}
    (taken : (Script.popAtom .exec).run state = (.ok atom, popped)) : state.depth .exec ≠ 0 := by
  intro idle
  have hfailed : ∃ fault, state.apply (.pop .exec) = .error fault := by
    rw [apply, pop, itemsOrFault, items]
    rw [depth] at idle
    cases hstack : state.stack? .exec with
    | none => exact ⟨_, rfl⟩
    | some items =>
      rw [hstack] at idle
      obtain rfl : items = [] := List.length_eq_zero_iff.mp idle
      exact ⟨_, rfl⟩
  obtain ⟨fault, hfault⟩ := hfailed
  have hran := (Script.run_act_of_failed hfault).symm.trans taken
  cases hran

end State

/-! ## Configurations -/

/-- **A configuration**: the pending work of a state, and the `State.settled` form of the state
without it. -/
structure Config where
  /-- The pending work, the next of it first. -/
  pending : List Value
  /-- The state without its pending work. -/
  rest : State

namespace Config

variable {config : Config} {id : StackId}

/-- The items of a stack, top first: `pending` for `.exec`, and those of `rest` for the others. -/
def stack? (config : Config) (id : StackId) : Option (List Value) :=
  if id = .exec then some config.pending else config.rest.stack? id

/-- Replaces the items of a stack: `pending` for `.exec`, and those of `rest` for the others. -/
def setStack (config : Config) (id : StackId) (items : List Value) : Config :=
  if id = .exec then { config with pending := items }
  else { config with rest := config.rest.setStack id items }

theorem stack?_of_ne (hne : id ≠ .exec) : config.stack? id = config.rest.stack? id := if_neg hne

theorem setStack_of_ne (hne : id ≠ .exec) (items : List Value) :
    config.setStack id items = ⟨config.pending, config.rest.setStack id items⟩ :=
  if_neg hne

section Replaced

variable {pending items old : List Value} {rest : State}

/-- A stack of data (`id ≠ .exec`) that was replaced holds the new items. -/
theorem stack?_replaced (found : rest.stack? id = some old) (hne : id ≠ .exec) :
    (Config.mk pending (rest.setStack id items)).stack? id = some items :=
  (stack?_of_ne hne).trans (State.stack?_setStack_self found items)

/-- The second of two replacements wins: `setStack` on `setStack` with the same `id`. -/
theorem setStack_replaced (hne : id ≠ .exec) (new : List Value) :
    (Config.mk pending (rest.setStack id items)).setStack id new =
      ⟨pending, rest.setStack id new⟩ := by
  rw [setStack_of_ne hne, State.setStack_setStack]

end Replaced

/-- Whether every stack that an instruction reads, in `instruction.inputs`, holds enough items. -/
def Readies (config : Config) (instruction : Instruction) : Prop :=
  ∀ id ∈ instruction.inputs, ∃ items, config.stack? id = some items ∧
    instruction.inputs.count id ≤ items.length

/-- One item on each stack is enough for an instruction that reads one of each: its `inputs` are
distinct. -/
theorem readies_of_nodup {instruction : Instruction} (nodup : instruction.inputs.Nodup)
    (tops : ∀ id ∈ instruction.inputs, ∃ value items, config.stack? id = some (value :: items)) :
    config.Readies instruction := by
  intro id hid
  obtain ⟨value, items, hitems⟩ := tops id hid
  refine ⟨_, hitems, ?_⟩
  rw [nodup.count, if_pos hid]
  exact Nat.succ_le_succ (Nat.zero_le _)

end Config

/-- The configuration that a state is in, whether or not a transaction is open. -/
structure State.Shows (state : State) (config : Config) : Prop where
  /-- The pending work is on `.exec`. -/
  pending : state.stack? .exec = some config.pending
  /-- The rest is `state.settled`. -/
  rest : state.settled = config.rest

namespace State.Shows

variable {state : State} {config : Config} {id : StackId}

/-- The stacks are those of the configuration: `state.stack? id = config.stack? id`. -/
theorem stack?_eq (shown : state.Shows config) (id : StackId) :
    state.stack? id = config.stack? id := by
  by_cases hid : id = .exec
  · subst hid
    exact shown.pending
  · rw [Config.stack?_of_ne hid, ← shown.rest, stack?_settled state hid]

/-- Replacing a stack replaces it in the configuration: `setStack` of the one shows that of the
other. -/
theorem setStack (shown : state.Shows config) (id : StackId) (items : List Value) :
    (state.setStack id items).Shows (config.setStack id items) := by
  by_cases hid : id = .exec
  · subst hid
    exact ⟨stack?_setStack_self shown.pending items,
      (settled_setStack state items).trans shown.rest⟩
  · rw [Config.setStack_of_ne hid]
    refine ⟨?_, ?_⟩
    · rw [stack?_setStack_of_ne (Ne.symm hid)]
      exact shown.pending
    · show (state.snapshot.setStack id items).setStack .exec [] = config.rest.setStack id items
      rw [setStack_comm (Ne.symm hid), ← shown.rest, settled]

/-- Notes are not part of the configuration. -/
theorem note (shown : state.Shows config) (change : Change) :
    (state.note change).Shows config :=
  ⟨(stack?_note change).trans shown.pending, (settled_note state change).trans shown.rest⟩

/-- Pushing an item puts it in front of the `items` of the configuration. -/
theorem push {items : List Value} (shown : state.Shows config)
    (found : config.stack? id = some items) (value : Value) :
    ∃ next, state.push id value = .ok next ∧ next.Shows (config.setStack id (value :: items)) ∧
      next.pushed = state.pushed + 1 := by
  have hshown := shown.setStack id (value :: items)
  have hpushed : Shows { state.setStack id (value :: items) with pushed := state.pushed + 1 }
      (config.setStack id (value :: items)) := ⟨hshown.pending, hshown.rest⟩
  exact ⟨_, push_eq ((shown.stack?_eq id).trans found) value, hpushed.note _, pushed_note _⟩

/-- An instruction is `ready` in every state of a configuration that `Readies` it. -/
theorem ready {instruction : Instruction} (shown : state.Shows config)
    (readies : config.Readies instruction) : instruction.ready state = true := by
  rw [Instruction.ready, List.all_eq_true]
  intro id hid
  obtain ⟨items, hitems, hcount⟩ := readies id hid
  rw [depth, shown.stack?_eq, hitems]
  exact decide_eq_true hcount

/-- It is not ready where a stack has too few. -/
theorem not_ready {instruction : Instruction} {items : List Value} (shown : state.Shows config)
    (reads : id ∈ instruction.inputs) (found : config.stack? id = some items)
    (few : items.length < instruction.inputs.count id) : instruction.ready state = false := by
  rw [Instruction.ready, List.all_eq_false]
  refine ⟨id, reads, ?_⟩
  rw [depth, shown.stack?_eq, found]
  exact fun h => Nat.not_le_of_lt few (of_decide_eq_true h)

end State.Shows

/-! ## What scripts do to configurations -/

namespace Script

/-- **What a script does**: in every state of `before` it succeeds with `result` and leaves `after`,
and it pushes a number of items. -/
def Does {α : Type} (script : Script α) (before : Config) (result : α) (after : Config)
    (pushes : Nat) : Prop :=
  ∀ state : State, state.Shows before → ∃ next, script.run state = (.ok result, next) ∧
    next.Shows after ∧ next.pushed = state.pushed + pushes

/-- A script that gives up in every state of a configuration. -/
def GivesUp {α : Type} (script : Script α) (config : Config) : Prop :=
  ∀ state : State, state.Shows config → (script.run state).1 = .error .revert

variable {α β : Type} {config before middle after : Config} {id : StackId} {value : Value}
  {items : List Value}

/-- The configuration that is left may be given in another form, by an equation `middle = after`. -/
theorem Does.to {script : Script α} {result : α} {n : Nat}
    (does : script.Does before result middle n) (same : middle = after) :
    script.Does before result after n := same ▸ does

/-- Two scripts one after the other: results and configurations pass on, and the pushes `n + m` add
up. -/
theorem Does.bind {script : Script α} {rest : α → Script β} {first : α} {second : β} {n m : Nat}
    (does : script.Does before first middle n) (goesOn : (rest first).Does middle second after m) :
    (script >>= rest).Does before second after (n + m) := by
  intro state shown
  obtain ⟨next, hrun, hnext, hpushed⟩ := does state shown
  obtain ⟨last, hlast, hshown, hmore⟩ := goesOn next hnext
  refine ⟨last, ?_, hshown, ?_⟩
  · rw [run_bind, hrun]
    exact hlast
  · rw [hmore, hpushed, Nat.add_assoc]

/-- A script that `GivesUp` after another one. -/
theorem Does.bind_givesUp {script : Script α} {rest : α → Script β} {first : α} {n : Nat}
    (does : script.Does before first middle n) (ends : (rest first).GivesUp middle) :
    (script >>= rest).GivesUp before := by
  intro state shown
  obtain ⟨next, hrun, hnext, -⟩ := does state shown
  rw [run_bind, hrun]
  exact ends next hnext

theorem does_done (result : α) : (Script.done result).Does config result config 0 :=
  fun state shown => ⟨state, rfl, shown, rfl⟩

theorem givesUp_revert : (Script.revert : Script α).GivesUp config := fun _ _ => rfl

/-- Pushing an item, `Script.push`, is one push onto `items`. -/
theorem does_push (found : config.stack? id = some items) (value : Value) :
    (Script.push id value).Does config () (config.setStack id (value :: items)) 1 := by
  intro state shown
  obtain ⟨next, hpush, hnext⟩ := shown.push found value
  have happly : state.apply (.push id value) = .ok ((), next) := by
    rw [State.apply, hpush]
  exact ⟨next, run_act_of_apply happly, hnext⟩

/-- Taking the top item, `Script.pop`, leaves the other `items`. -/
theorem does_pop (found : config.stack? id = some (value :: items)) :
    (Script.pop id).Does config value (config.setStack id items) 0 := by
  intro state shown
  have happly : state.apply (.pop id) =
      .ok (value, (state.setStack id items).note (.popped id value)) := by
    rw [State.apply, State.pop, State.itemsOrFault_of_found ((shown.stack?_eq id).trans found)]
    rfl
  exact ⟨_, run_act_of_apply happly, (shown.setStack id items).note _, State.pushed_note _⟩

/-- Taking an atom, `Script.popAtom`, where the top item is `.code atom`. -/
theorem does_popAtom {atom : Atom} (found : config.stack? id = some (.code atom :: items)) :
    (Script.popAtom id).Does config atom (config.setStack id items) 0 := by
  rw [popAtom]
  exact .bind (n := 0) (m := 0) (does_pop found) (does_done atom)

/-- Taking an integer, `Script.popInt`, where the top item is `.int n`. -/
theorem does_popInt {n : Int64} (found : config.stack? .int = some (.int n :: items)) :
    Script.popInt.Does config n (config.setStack .int items) 0 := by
  rw [popInt, popItem]
  exact .bind (n := 0) (m := 0) (does_pop found) (does_done n)

/-- Pushing code of at most `caps.maxPoints` points. -/
theorem does_pushCodeWithin {caps : SizeCaps} {atom : Atom} (fits : atom.size ≤ caps.maxPoints)
    (found : config.stack? id = some items) :
    (Instruction.pushCodeWithin caps id atom).Does config ()
      (config.setStack id (.code atom :: items)) 1 := by
  rw [Instruction.pushCodeWithin, if_neg (Nat.not_lt_of_le fits)]
  exact does_push found _

/-- Code of more than `caps.maxPoints` points is not pushed. -/
theorem givesUp_pushCodeWithin {caps : SizeCaps} {atom : Atom}
    (large : caps.maxPoints < atom.size) :
    (Instruction.pushCodeWithin caps id atom).GivesUp config := by
  rw [Instruction.pushCodeWithin, if_pos large]
  exact givesUp_revert

end Script

/-! ## What work leads to -/

namespace Library

/-- Steps after steps: `n` and `m` of them are `n + m`. -/
theorem Steps.trans {library : Library} {limits : Limits} {n m : Nat} {state middle last : State}
    (first : library.Steps limits n state middle) (second : library.Steps limits m middle last) :
    library.Steps limits (n + m) state last := by
  induction first with
  | zero => rwa [Nat.zero_add]
  | succ taken goes _ ih =>
    rw [Nat.add_right_comm]
    exact .succ taken goes (ih second)

/-- A state without pending work takes no step. -/
theorem Steps.eq_of_idle {library : Library} {limits : Limits} {n : Nat} {state last : State}
    (steps : library.Steps limits n state last) (idle : state.stack? .exec = some []) :
    last = state := by
  cases steps with
  | zero => rfl
  | succ taken goes rest =>
    have hfailed : state.apply (.pop .exec) = .error .revert := by
      rw [State.apply, State.pop, State.itemsOrFault_of_found idle]
      rfl
    have hran := (Script.run_act_of_failed hfailed).symm.trans taken
    cases hran

/-- A run comes to one state without pending work at most. -/
theorem Steps.unique_of_idle {library : Library} {limits : Limits} {n m : Nat}
    {state first second : State} (one : library.Steps limits n state first)
    (other : library.Steps limits m state second) (idle : first.stack? .exec = some [])
    (idle' : second.stack? .exec = some []) : first = second := by
  induction one generalizing m with
  | zero => exact (other.eq_of_idle idle).symm
  | succ taken goes rest ih =>
    cases other with
    | zero => exact (Steps.succ taken goes rest).eq_of_idle idle'
    | succ taken' goes' rest' =>
      rw [taken] at taken'
      cases taken'
      exact ih rest' idle

/-- **A realm of a library**: states from which no step leads out, in which every type has its stack
and the printed characters are `Counted` right. -/
structure Realm (library : Library) (limits : Limits) (realm : State → Prop) : Prop where
  /-- Steps stay in the realm. -/
  steps : ∀ {n state last}, realm state → library.Steps limits n state last → realm last
  /-- Every type of `library.registry` has its stack. -/
  housed : ∀ {state id}, realm state → library.registry.contains id = true →
    ∃ items, state.stack? id = some items
  /-- The count of printed characters is right. -/
  counted : ∀ {state}, realm state → state.Counted

/-- **The states of a machine**, whatever lies on their stacks, are a realm of its library: those
`From` an empty state. -/
theorem realm_of_registry (library : Library) (limits : Limits) :
    library.Realm limits (·.From (.ofRegistry library.registry)) where
  steps started steps := started.steps steps
  housed {state id} started registered := by
    obtain ⟨type, htype⟩ := Registry.exists_of_contains registered
    have hempty : state.reset.stack? id = some [] := by
      rw [started.reset_eq, State.stack?_ofRegistry, htype]
      rfl
    rw [State.stack?_reset] at hempty
    obtain ⟨items, hitems, -⟩ := Option.map_eq_some_iff.mp hempty
    exact ⟨items, hitems⟩
  counted started := started.counted

/-- **Leading to a configuration**: from every state of the realm that shows `before`, some steps
that do not end the run come to a state that shows `after`. -/
def Leads (library : Library) (limits : Limits) (realm : State → Prop) (before after : Config) :
    Prop :=
  ∀ state, realm state → state.Shows before →
    ∃ n last, library.Steps limits n state last ∧ last.Shows after

/-- **Leading to a configuration in so many steps**, namely `n`. -/
def LeadsIn (library : Library) (limits : Limits) (realm : State → Prop) (n : Nat)
    (before after : Config) : Prop :=
  ∀ state, realm state → state.Shows before →
    ∃ last, library.Steps limits n state last ∧ last.Shows after

/-- **A closed body**: code that does `f` to the rest of every state of the realm, and leaves the
work behind it as it was. -/
def ClosedBody (library : Library) (limits : Limits) (realm : State → Prop) (body : Expr)
    (f : State → State) : Prop :=
  ∀ pending rest, library.Leads limits realm ⟨.code (.expr body) :: pending, rest⟩ ⟨pending, f rest⟩

/-- **A call that reverts** in every state of a configuration: nothing changes, and the run goes
on. -/
def Reverts (library : Library) (limits : Limits) (name : String) (config : Config) : Prop :=
  ∀ state : State, state.Counted → state.Shows config →
    library.call limits name state = { state := state.snapshot, call := some (name, .reverted) }

/-- A library that has some of the core types, `ids`, and some of the core instructions, `names`. -/
structure Offers (library : Library) (ids : List StackId) (names : List String) : Prop where
  /-- The types are those of `Registry.core`. -/
  type : ∀ id ∈ ids, library.registry.get? id = Registry.core.get? id
  /-- The names stand for the instructions of `InstructionSet.core`. -/
  instruction : ∀ name ∈ names,
    library.instructions.get? name = (InstructionSet.core .core).get? name

/-- The core has them all. -/
theorem offers_core (ids : List StackId) (names : List String) : core.Offers ids names :=
  ⟨fun _ _ => rfl, fun _ _ => rfl⟩

section Leads

variable {library : Library} {limits : Limits} {realm : State → Prop} {instruction : Instruction}
  {before middle after config : Config} {atom : Atom} {name : String} {pending : List Value}
  {rest : State} {id : StackId} {n m : Nat}

theorem Leads.refl (config : Config) : library.Leads limits realm config config :=
  fun state _ shown => ⟨0, state, .zero, shown⟩

/-- Steps in a realm stay there, so `Leads` can be put together. -/
theorem Leads.trans (first : library.Leads limits realm before middle)
    (reigns : library.Realm limits realm) (second : library.Leads limits realm middle after) :
    library.Leads limits realm before after := by
  intro state hrealm shown
  obtain ⟨n, next, hsteps, hnext⟩ := first state hrealm shown
  obtain ⟨m, last, hmore, hlast⟩ := second next (reigns.steps hrealm hsteps) hnext
  exact ⟨n + m, last, hsteps.trans hmore, hlast⟩

/-- In a realm the stack of a type is there. -/
theorem Leads.of_housed (reigns : library.Realm limits realm)
    (registered : library.registry.contains id = true)
    (leads : ∀ items, before.stack? id = some items → library.Leads limits realm before after) :
    library.Leads limits realm before after := by
  intro state hrealm shown
  obtain ⟨items, hitems⟩ := reigns.housed hrealm registered
  exact leads items ((shown.stack?_eq id).symm.trans hitems) state hrealm shown

/-- The number of steps may be left open: `LeadsIn` gives `Leads`. -/
theorem LeadsIn.leads (leads : library.LeadsIn limits realm n before after) :
    library.Leads limits realm before after := by
  intro state hrealm shown
  obtain ⟨last, hsteps, hlast⟩ := leads state hrealm shown
  exact ⟨n, last, hsteps, hlast⟩

/-- Numbers of steps add up, in `LeadsIn` as in `Steps`. -/
theorem LeadsIn.trans (first : library.LeadsIn limits realm n before middle)
    (reigns : library.Realm limits realm) (second : library.LeadsIn limits realm m middle after) :
    library.LeadsIn limits realm (n + m) before after := by
  intro state hrealm shown
  obtain ⟨next, hsteps, hnext⟩ := first state hrealm shown
  obtain ⟨last, hmore, hlast⟩ := second next (reigns.steps hrealm hsteps) hnext
  exact ⟨last, hsteps.trans hmore, hlast⟩

/-- **The step**: the next atom is taken, and what `perform` does leads on. -/
theorem leadsIn_of_perform (reigns : library.Realm limits realm)
    (performs : ∀ state : State, state.Counted → state.Shows ⟨pending, rest⟩ →
      (library.perform limits state atom).stop = none ∧
        (library.perform limits state atom).state.Shows after) :
    library.LeadsIn limits realm 1 ⟨.code atom :: pending, rest⟩ after := by
  intro state hrealm shown
  have hnext : (Config.mk (.code atom :: pending) rest).stack? .exec =
      some (.code atom :: pending) := rfl
  obtain ⟨popped, htaken, hpopped, -⟩ := Script.does_popAtom hnext state shown
  -- Taking the atom prints nothing, so the count stays right.
  have hcounted : popped.Counted := by
    have hinv := (Script.popAtom .exec).run_invariant State.Counted (fun did => did.counted)
      (reigns.counted hrealm)
    rwa [htaken] at hinv
  obtain ⟨hgoes, hshown⟩ := performs popped hcounted hpopped
  exact ⟨_, .succ htaken hgoes .zero, hshown⟩

/-- The parts of a block take its place in `pending`, in one step. -/
theorem leadsIn_block (reigns : library.Realm limits realm) (body : Block) (pending : List Value)
    (rest : State) :
    library.LeadsIn limits realm 1 ⟨.code (.expr (.block body)) :: pending, rest⟩
      ⟨(body.map fun e => .code (.expr e)) ++ pending, rest⟩ := by
  refine leadsIn_of_perform reigns fun state _ shown => ?_
  suffices h : ∃ next, splice body state = .ok next ∧
      next.Shows ⟨(body.map fun e => .code (.expr e)) ++ pending, rest⟩ by
    obtain ⟨next, hsplice, hnext⟩ := h
    rw [perform, hsplice]
    exact ⟨rfl, hnext⟩
  induction body with
  | nil => exact ⟨state, rfl, shown⟩
  | cons e others ih =>
    -- The parts behind are pushed first.
    obtain ⟨middle, hsplice, hmiddle⟩ := ih
    have hwaiting : (Config.mk ((others.map fun e => .code (.expr e)) ++ pending) rest).stack?
        .exec = some _ := rfl
    obtain ⟨next, hpush, hnext, -⟩ := hmiddle.push hwaiting (.code (.expr e))
    refine ⟨next, ?_, hnext⟩
    rw [splice] at hsplice ⊢
    rw [List.foldrM_cons, hsplice]
    exact hpush

theorem leads_block (reigns : library.Realm limits realm) (body : Block) (pending : List Value)
    (rest : State) :
    library.Leads limits realm ⟨.code (.expr (.block body)) :: pending, rest⟩
      ⟨(body.map fun e => .code (.expr e)) ++ pending, rest⟩ :=
  (leadsIn_block reigns body pending rest).leads

/-- A literal goes to its stack, by one push onto `id`. -/
theorem leadsIn_literal (reigns : library.Realm limits realm) {type : StackType}
    (registered : library.registry.get? id = some type) (hid : id ≠ .exec) {value : Value}
    (accepted : type.accepts value = true) {items : List Value}
    (found : rest.stack? id = some items) (pending : List Value) :
    library.LeadsIn limits realm 1 ⟨.code (.expr (.literal value id)) :: pending, rest⟩
      ⟨pending, rest.setStack id (value :: items)⟩ := by
  refine leadsIn_of_perform reigns fun state _ shown => ?_
  obtain ⟨next, hpush, hnext, -⟩ :=
    shown.push ((Config.stack?_of_ne hid).trans found) value
  rw [Config.setStack_of_ne hid] at hnext
  have hplaced : library.perform limits state (.expr (.literal value id)) = { state := next } := by
    rw [perform, placeLiteral, registered]
    simp only [accepted, if_true, hpush]
    rfl
  rw [hplaced]
  exact ⟨rfl, hnext⟩

/-- A literal does the same in every state. -/
theorem closedBody_literal (reigns : library.Realm limits realm) {type : StackType}
    (registered : library.registry.get? id = some type) (hid : id ≠ .exec) {value : Value}
    (accepted : type.accepts value = true) :
    library.ClosedBody limits realm (.literal value id) (·.modifyStack id (value :: ·)) := by
  intro pending rest
  have hcontains : library.registry.contains id = true := by
    rw [Registry.contains, registered]
    rfl
  refine .of_housed reigns hcontains fun items found => ?_
  rw [Config.stack?_of_ne hid] at found
  simp only [State.modifyStack_of_found found]
  exact (leadsIn_literal reigns registered hid accepted found pending).leads

/-- An instruction that is ready `Does` what its script does. -/
theorem leadsIn_call (reigns : library.Realm limits realm) (called : atom.called? = some name)
    (found : library.instructions.get? name = some instruction)
    (readies : (Config.mk pending rest).Readies instruction) {pushes : Nat}
    (does : (instruction.body limits.toSizeCaps).Does ⟨pending, rest⟩ () after pushes)
    (fits : pushes ≤ limits.growthCap) :
    library.LeadsIn limits realm 1 ⟨.code atom :: pending, rest⟩ after := by
  refine leadsIn_of_perform reigns fun state _ shown => ?_
  have hopen : state.openTransaction.Shows ⟨pending, rest⟩ := ⟨shown.pending, shown.rest⟩
  obtain ⟨next, hrun, hnext, hpushed⟩ := does _ hopen
  -- A transaction counts its pushes from zero.
  have hfits : ¬limits.growthCap < next.pushed := by
    rw [hpushed]
    exact Nat.not_lt_of_le (Nat.le_trans (Nat.le_of_eq (Nat.zero_add pushes)) fits)
  have hcall : library.call limits name state =
      { state := next.commit.2, call := some (name, .committed next.commit.1) } := by
    rw [call, found]
    simp only [Instruction.eval, if_pos (hopen.ready readies), hrun, if_neg hfits]
  rw [perform_of_called called, hcall]
  exact ⟨rfl, hnext.pending, hnext.rest⟩

theorem leads_call (reigns : library.Realm limits realm) (called : atom.called? = some name)
    (found : library.instructions.get? name = some instruction)
    (readies : (Config.mk pending rest).Readies instruction) {pushes : Nat}
    (does : (instruction.body limits.toSizeCaps).Does ⟨pending, rest⟩ () after pushes)
    (fits : pushes ≤ limits.growthCap) :
    library.Leads limits realm ⟨.code atom :: pending, rest⟩ after :=
  (leadsIn_call reigns called found readies does fits).leads

/-- A call that `Reverts` leaves all as it is. -/
theorem Reverts.leads (reverts : library.Reverts limits name ⟨pending, rest⟩)
    (reigns : library.Realm limits realm) (called : atom.called? = some name) :
    library.Leads limits realm ⟨.code atom :: pending, rest⟩ ⟨pending, rest⟩ := by
  refine (leadsIn_of_perform reigns fun state counted shown => ?_).leads
  rw [perform_of_called called, reverts state counted shown]
  exact ⟨rfl, shown.pending, shown.rest⟩

/-- An instruction that is not ready reverts, and so does one whose script gives up. -/
theorem reverts_of_eval (found : library.instructions.get? name = some instruction)
    (fails : ∀ state : State, state.Shows config →
      (instruction.eval limits.toSizeCaps state).1 = .error .revert) :
    library.Reverts limits name config := by
  intro state counted shown
  have hfault := fails state.openTransaction ⟨shown.pending, shown.rest⟩
  -- Taking the changes back leads to the state before the call, whatever the script did.
  have hrollback := instruction.eval_rollback limits.toSizeCaps counted
  rw [call, found]
  rcases heval : instruction.eval limits.toSizeCaps state.openTransaction with ⟨result, next⟩
  rw [heval] at hfault hrollback
  obtain rfl : result = .error .revert := hfault
  simp only [heval, ← hrollback]

/-- An instruction that finds fewer items on a stack than `instruction.inputs` asks for reverts. -/
theorem reverts_of_few (found : library.instructions.get? name = some instruction)
    (reads : id ∈ instruction.inputs) {items : List Value} (stack : config.stack? id = some items)
    (few : items.length < instruction.inputs.count id) : library.Reverts limits name config := by
  refine reverts_of_eval found fun state shown => ?_
  rw [Instruction.eval, shown.not_ready reads stack few]
  rfl

/-- An instruction whose script `GivesUp` reverts. -/
theorem reverts_of_givesUp (found : library.instructions.get? name = some instruction)
    (ends : (instruction.body limits.toSizeCaps).GivesUp config) :
    library.Reverts limits name config := by
  refine reverts_of_eval found fun state shown => ?_
  rw [Instruction.eval]
  split
  · exact ends state shown
  · rfl

/-- A core type that the library has is registered. -/
theorem Offers.contains {ids : List StackId} {names : List String}
    (offers : library.Offers ids names) (hid : id ∈ ids)
    (core : Registry.core.contains id = true) : library.registry.contains id = true := by
  rw [Registry.contains, offers.type id hid]
  exact core

/-- Quoting, `"code_from_exec"`, moves the next atom to the code stack. -/
theorem Offers.leads_quote {ids : List StackId} {names : List String}
    (offers : library.Offers ids names) (hcode : .code ∈ ids) (hname : "code_from_exec" ∈ names)
    (reigns : library.Realm limits realm) (cap : 1 ≤ limits.growthCap)
    (called : atom.called? = some "code_from_exec") {quoted : Atom}
    (fits : quoted.size ≤ limits.maxPoints) (pending : List Value) (rest : State) :
    library.Leads limits realm ⟨.code atom :: .code quoted :: pending, rest⟩
      ⟨pending, rest.modifyStack .code (.code quoted :: ·)⟩ := by
  refine .of_housed reigns (offers.contains hcode rfl) fun codes hcodes => ?_
  have hquote := (offers.instruction _ hname).trans (InstructionSet.get?_core rfl rfl)
  have hcodes' : (Config.mk pending rest).stack? .code = some codes := hcodes
  have hready : (Config.mk (.code quoted :: pending) rest).Readies
      { name := "code_from_exec", inputs := [.exec], outputs := [.code], groups := 1
        body := Instruction.quotePending } := by
    refine Config.readies_of_nodup (by decide) fun id hid => ?_
    obtain rfl := List.mem_singleton.mp hid
    exact ⟨_, _, rfl⟩
  rw [State.modifyStack_of_found (show rest.stack? .code = some codes from hcodes)]
  exact leads_call reigns called hquote hready
    (.bind (m := 1) (Script.does_popAtom rfl) (Script.does_pushCodeWithin fits hcodes')) cap

end Leads

end Library

end PushMachine
