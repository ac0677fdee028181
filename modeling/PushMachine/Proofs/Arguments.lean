import PushMachine.Proofs.PendingWork

/-! # Instructions and their arguments

What an instruction on data does is told by its arguments and its result. On every state that holds
the arguments on top of its stacks it leads to the state that holds the result in their place,
whatever lies below them (`Library.Gives`), or it reverts and leaves the arguments where they are
(`Library.Declines`).

A script takes its arguments one by one, the last first, and each one that it takes leads back to
the configuration from before that one was there (`Script.does_pop_topped`). So a script is followed
along its arguments, and never along a whole stack. -/

namespace PushMachine

/-- **A state that holds more**: `values` on top of the stacks, the last of them pushed last. -/
def State.holding (state : State) (values : List (StackId × Value)) : State :=
  values.foldl (fun state entry => state.modifyStack entry.1 (entry.2 :: ·)) state

/-! ## Configurations that hold more -/

namespace Config

variable {config : Config} {id other : StackId} {items : List Value} {value : Value}
  {values : List (StackId × Value)}

/-- The configuration has a stack. -/
def Has (config : Config) (id : StackId) : Prop := ∃ items, config.stack? id = some items

/-- A stack that `setStack` replaced holds the new items, if it existed. -/
theorem stack?_setStack_self (found : config.stack? id = some items) (new : List Value) :
    (config.setStack id new).stack? id = some new := by
  by_cases hid : id = .exec
  · rw [stack?, setStack, if_pos hid, if_pos hid]
  · rw [stack?_of_ne hid] at found
    rw [setStack_of_ne hid, stack?_replaced found hid]

/-- Replacing a stack leaves the others alone. -/
theorem stack?_setStack_of_ne (hne : other ≠ id) (new : List Value) :
    (config.setStack id new).stack? other = config.stack? other := by
  by_cases hid : id = .exec
  · subst hid
    rw [stack?_of_ne hne, stack?_of_ne hne]
    rfl
  · rw [setStack_of_ne hid]
    by_cases hother : other = .exec
    · subst hother
      rfl
    · rw [stack?_of_ne hother, stack?_of_ne hother]
      exact State.stack?_setStack_of_ne hne new

/-- The second of two replacements wins: `setStack` on `setStack` with the same `id`. -/
theorem setStack_setStack (first second : List Value) :
    (config.setStack id first).setStack id second = config.setStack id second := by
  by_cases hid : id = .exec
  · simp only [setStack, if_pos hid]
  · rw [setStack_of_ne hid, setStack_of_ne hid, setStack_of_ne hid, State.setStack_setStack]

/-- Replacing a stack by its own items changes nothing: `config.setStack id items = config`. -/
theorem setStack_self (found : config.stack? id = some items) :
    config.setStack id items = config := by
  by_cases hid : id = .exec
  · subst hid
    cases found
    rfl
  · rw [stack?_of_ne hid] at found
    rw [setStack_of_ne hid, State.setStack_self found]

/-- The configuration with `value` on top of the stack `id`. -/
def topped (config : Config) (id : StackId) (value : Value) : Config :=
  config.setStack id (value :: (config.stack? id).getD [])

theorem topped_of_found (found : config.stack? id = some items) (value : Value) :
    config.topped id value = config.setStack id (value :: items) := by
  rw [topped, found, Option.getD_some]

/-- The value is on top. -/
theorem stack?_topped_self (found : config.stack? id = some items) (value : Value) :
    (config.topped id value).stack? id = some (value :: items) := by
  rw [topped_of_found found, stack?_setStack_self found]

theorem stack?_topped_of_ne (hne : other ≠ id) (value : Value) :
    (config.topped id value).stack? other = config.stack? other :=
  stack?_setStack_of_ne hne _

/-- A value on top takes no stack away. -/
theorem Has.topped (has : config.Has other) (id : StackId) (value : Value) :
    (config.topped id value).Has other := by
  obtain ⟨items, found⟩ := has
  by_cases hne : other = id
  · subst hne
    exact ⟨_, stack?_topped_self found value⟩
  · exact ⟨items, (stack?_topped_of_ne hne value).trans found⟩

/-- The configuration with `values` on top of the stacks, the last of them pushed last. -/
def holding (config : Config) (values : List (StackId × Value)) : Config :=
  values.foldl (fun config entry => config.topped entry.1 entry.2) config

/-- A stack holds as many items more as there are entries for `id` in `values`. -/
theorem stack?_holding (found : config.stack? id = some items)
    (values : List (StackId × Value)) :
    ∃ held, (config.holding values).stack? id = some held ∧
      held.length = items.length + (values.map Prod.fst).count id := by
  induction values generalizing config items with
  | nil => exact ⟨items, found, rfl⟩
  | cons entry rest ih =>
    by_cases hid : id = entry.1
    · subst hid
      obtain ⟨held, hheld, hlength⟩ := ih (stack?_topped_self found entry.2)
      refine ⟨held, hheld, ?_⟩
      rw [hlength, List.length_cons, List.map_cons, List.count_cons_self]
      omega
    · obtain ⟨held, hheld, hlength⟩ := ih ((stack?_topped_of_ne hid entry.2).trans found)
      refine ⟨held, hheld, ?_⟩
      rw [hlength, List.map_cons, List.count_cons_of_ne (Ne.symm hid)]

/-- More values take no stack away. -/
theorem Has.holding (has : config.Has id) (values : List (StackId × Value)) :
    (config.holding values).Has id := by
  obtain ⟨items, found⟩ := has
  obtain ⟨held, hheld, -⟩ := stack?_holding found values
  exact ⟨held, hheld⟩

/-- With as many values for each stack as `instruction.inputs` has, it is ready. -/
theorem readies_holding {instruction : Instruction}
    (enough : ∀ id ∈ instruction.inputs, ∃ items, config.stack? id = some items ∧
      instruction.inputs.count id ≤ items.length + (values.map Prod.fst).count id) :
    (config.holding values).Readies instruction := by
  intro id hid
  obtain ⟨items, found, hcount⟩ := enough id hid
  obtain ⟨held, hheld, hlength⟩ := stack?_holding found values
  exact ⟨held, hheld, hlength ▸ hcount⟩

end Config

namespace State

variable {state other : State} {config : Config}

/-- States of one configuration differ in their transactions only: they have one `snapshot`. -/
theorem Shows.snapshot_eq (one : state.Shows config) (same : other.Shows config) :
    state.snapshot = other.snapshot := by
  -- The pending work in front of the settled form makes up the state.
  have hwhole {state : State} (shown : state.Shows config) :
      state.snapshot = config.rest.setStack .exec config.pending := by
    have hpending : state.snapshot.stack? .exec = some config.pending := shown.pending
    rw [← shown.rest, settled, setStack_setStack, setStack_self hpending]
  rw [hwhole one, hwhole same]

/-- More values in the state are more values in the configuration: `holding` on both sides. -/
theorem Shows.holding (shown : state.Shows config) {values : List (StackId × Value)}
    (has : ∀ entry ∈ values, config.Has entry.1) :
    (state.holding values).Shows (config.holding values) := by
  induction values generalizing state config with
  | nil => exact shown
  | cons entry rest ih =>
    obtain ⟨⟨items, found⟩, hrest⟩ := List.forall_mem_cons.mp has
    have htopped : (state.modifyStack entry.1 (entry.2 :: ·)).Shows
        (config.topped entry.1 entry.2) := by
      rw [modifyStack_of_found ((shown.stack?_eq _).trans found), Config.topped_of_found found]
      exact shown.setStack _ _
    exact ih htopped fun other hother => (hrest other hother).topped _ _

/-- The printed text stays as it is. -/
theorem Counted.holding (counted : state.Counted) (values : List (StackId × Value)) :
    (state.holding values).Counted := by
  induction values generalizing state with
  | nil => exact counted
  | cons entry rest ih =>
    have hmore : (state.modifyStack entry.1 (entry.2 :: ·)).Counted := by
      rw [modifyStack]
      split <;> exact counted
    exact ih hmore

end State

/-! ## Taking and giving values -/

namespace Script

variable {α : Type} {config : Config} {id : StackId} {value : Value}

/-- **Taking the value on top**: `Script.pop` leads from `config.topped id value` back to `config`.
-/
theorem does_pop_topped (has : config.Has id) (value : Value) :
    (Script.pop id).Does (config.topped id value) value config 0 := by
  obtain ⟨items, found⟩ := has
  refine (does_pop (Config.stack?_topped_self found value)).to ?_
  rw [Config.topped_of_found found, Config.setStack_setStack, Config.setStack_self found]

/-- Pushing a value leads from `config` to `config.topped id value`. -/
theorem does_push_topped (has : config.Has id) (value : Value) :
    (Script.push id value).Does config () (config.topped id value) 1 := by
  obtain ⟨items, found⟩ := has
  exact (does_push found value).to (Config.topped_of_found found value).symm

/-- Taking a value that is an item of a vector's type, with `popItem`. -/
theorem does_popItem [BEq α] [Item α] {x : α} (has : config.Has (Item.stack α))
    (read : Item.ofValue? value = some x) :
    (popItem : Script α).Does (config.topped (Item.stack α) value) x config 0 := by
  rw [popItem]
  refine .bind (n := 0) (m := 0) (does_pop_topped has _) ?_
  rw [read]
  exact does_done x

/-- Taking an integer, with `popInt`, from `config.topped .int (.int n)`. -/
theorem does_popInt_topped (has : config.Has .int) (n : Int64) :
    popInt.Does (config.topped .int (.int n)) n config 0 :=
  does_popItem (α := Int64) has rfl

/-- A result that is there: `ofOption` of `some x`. -/
theorem does_ofOption {result : Option α} {x : α} (there : result = some x) :
    (ofOption result).Does config x config 0 := by
  rw [there]
  exact does_done x

/-- A result that is not there: `ofOption` of `none`. -/
theorem givesUp_ofOption {result : Option α} (missing : result = none) :
    (ofOption result).GivesUp config := by
  rw [missing]
  exact givesUp_revert

/-- **A script answers**: it leads from `before` to `base` with a value on top, or it gives up where
there is no answer. -/
def Answers (script : Script Unit) (before base : Config) : Option (StackId × Value) → Prop
  | some (id, value) => script.Does before () (base.topped id value) 1
  | none => script.GivesUp before

/-- Taking something before the answer: `Does` and then `Answers`. -/
theorem Does.bind_answers {script : Script α} {rest : α → Script Unit} {first : α}
    {before middle base : Config} {answer : Option (StackId × Value)}
    (does : script.Does before first middle 0)
    (answers : (rest first).Answers middle base answer) :
    (script >>= rest).Answers before base answer := by
  match answer, answers with
  | some (id, value), answers => exact .bind (m := 1) does answers
  | none, answers => exact does.bind_givesUp answers

/-- Pushing a value within a limit: it is answered unless `limit < length`. -/
theorem answers_push_within (has : config.Has id) (value : Value) (limit length : Nat) :
    (if limit < length then revert else push id value).Answers config config
      (if length ≤ limit then some (id, value) else none) := by
  by_cases hfits : length ≤ limit
  · rw [if_neg (Nat.not_lt.mpr hfits), if_pos hfits]
    exact does_push_topped has value
  · rw [if_pos (Nat.lt_of_not_le hfits), if_neg hfits]
    exact givesUp_revert

/-- Giving up before going on. -/
theorem GivesUp.bind {β : Type} {script : Script α} (ends : script.GivesUp config)
    (rest : α → Script β) : (script >>= rest).GivesUp config := by
  intro state shown
  have hfails := ends state shown
  rw [run_bind]
  rcases hrun : script.run state with ⟨result, next⟩
  rw [hrun] at hfails
  obtain rfl : result = .error .revert := hfails
  rfl

end Script

namespace Instruction

variable {instruction : Instruction} {caps : SizeCaps} {state target : State}
  {config before after : Config}

/-- An `attempt` that succeeds does what the script does. -/
theorem attempt_of_does {n : Nat} (shown : state.Shows before)
    (readies : before.Readies instruction) (does : (instruction.body caps).Does before () after n)
    (reached : target.Shows after) :
    instruction.attempt caps state = (.ok n, target.snapshot) := by
  have hopen : state.openTransaction.Shows before := ⟨shown.pending, shown.rest⟩
  obtain ⟨next, hrun, hnext, hpushed⟩ := does _ hopen
  rw [attempt, eval, if_pos (hopen.ready readies), hrun, ← hnext.snapshot_eq reached]
  -- A transaction counts its pushes from zero.
  have hcount : next.pushed = n := hpushed.trans (Nat.zero_add n)
  rw [← hcount]
  rfl

/-- An `attempt` whose script `GivesUp` changes nothing. -/
theorem attempt_of_givesUp (counted : state.Counted) (shown : state.Shows config)
    (ends : (instruction.body caps).GivesUp config) :
    instruction.attempt caps state = (.error .revert, state.snapshot) := by
  have hopen : state.openTransaction.Shows config := ⟨shown.pending, shown.rest⟩
  have hfails : (instruction.eval caps state.openTransaction).1 = .error .revert := by
    rw [eval]
    split
    · exact ends _ hopen
    · rfl
  have hrollback := instruction.eval_rollback caps counted
  rw [attempt]
  rcases heval : instruction.eval caps state.openTransaction with ⟨result, next⟩
  rw [heval] at hfails hrollback
  obtain rfl : result = .error .revert := hfails
  simp only [← hrollback]

end Instruction

/-! ## Calls with arguments -/

namespace Library

/-- **A call with arguments**: an instruction is called by its name on a state that is `holding` its
arguments too. The result is the state afterwards, if the call succeeds. -/
def callWith? (library : Library) (caps : SizeCaps) (name : String)
    (arguments : List (StackId × Value)) (state : State) : Option State :=
  match library.instructions.get? name with
  | none => none
  | some instruction =>
    match instruction.attempt caps (state.holding arguments) with
    | (.ok _, after) => some after
    | (.error _, _) => none

/-- **An instruction gives a value** for some arguments: in every state of a machine it takes the
arguments away and pushes the value, and all else is as it was. -/
def Gives (library : Library) (caps : SizeCaps) (name : String)
    (arguments : List (StackId × Value)) (id : StackId) (value : Value) : Prop :=
  ∀ state : State, state.From (.ofRegistry library.registry) →
    library.callWith? caps name arguments state = some (state.holding [(id, value)]).snapshot

/-- **An instruction declines** some arguments: it reverts in every state of a machine, and the
arguments stay where they are. -/
def Declines (library : Library) (caps : SizeCaps) (name : String)
    (arguments : List (StackId × Value)) : Prop :=
  ∃ instruction, library.instructions.get? name = some instruction ∧
    ∀ state : State, state.From (.ofRegistry library.registry) →
      instruction.attempt caps (state.holding arguments) =
        (.error .revert, (state.holding arguments).snapshot)

/-- **What an instruction answers**: a value that it `Gives` for its arguments, or nothing if it
`Declines` them. -/
def Answers (library : Library) (caps : SizeCaps) (name : String)
    (arguments : List (StackId × Value)) : Option (StackId × Value) → Prop
  | some (id, value) => library.Gives caps name arguments id value
  | none => library.Declines caps name arguments

/-- **Two calls are alike** if they come to the same in every state of a machine. -/
def Alike (library : Library) (caps : SizeCaps) (name : String)
    (arguments : List (StackId × Value)) (name' : String)
    (arguments' : List (StackId × Value)) : Prop :=
  ∀ state : State, state.From (.ofRegistry library.registry) →
    library.callWith? caps name arguments state = library.callWith? caps name' arguments' state

variable {library : Library} {caps : SizeCaps} {name : String} {instruction : Instruction}
  {arguments : List (StackId × Value)} {state : State} {id : StackId} {ids : List StackId}

/-- What `callWith?` comes to if the attempt succeeds. -/
theorem callWith?_of_attempt {n : Nat} {after : State}
    (found : library.instructions.get? name = some instruction)
    (attempted : instruction.attempt caps (state.holding arguments) = (.ok n, after)) :
    library.callWith? caps name arguments state = some after := by
  rw [callWith?, found]
  simp only [attempted]

/-- A state of a machine shows a configuration that `Has` the stacks of the registered types. -/
theorem exists_shows (library : Library) (ids : List StackId)
    (started : state.From (.ofRegistry library.registry))
    (registered : ∀ id ∈ .exec :: ids, library.registry.contains id = true) :
    ∃ config : Config, state.Shows config ∧ ∀ id ∈ ids, config.Has id := by
  have housed := fun id hid =>
    (library.realm_of_registry {}).housed started (registered id hid)
  obtain ⟨pending, hpending⟩ := housed .exec List.mem_cons_self
  have shown : state.Shows ⟨pending, state.settled⟩ := ⟨hpending, rfl⟩
  refine ⟨_, shown, fun id hid => ?_⟩
  obtain ⟨items, hitems⟩ := housed id (List.mem_cons_of_mem _ hid)
  exact ⟨items, (shown.stack?_eq id).symm.trans hitems⟩

/-- **The rule for a result**: an instruction that reads its arguments and whose script takes them
and pushes the value gives the value. -/
theorem gives_of_does {value : Value} (ids : List StackId)
    (found : library.instructions.get? name = some instruction)
    (registered : ∀ id ∈ .exec :: ids, library.registry.contains id = true)
    (taken : ∀ entry ∈ arguments, entry.1 ∈ ids) (given : id ∈ ids)
    (reads : instruction.inputs.Perm (arguments.map Prod.fst))
    (does : ∀ config : Config, (∀ id ∈ ids, config.Has id) →
      (instruction.body caps).Does (config.holding arguments) () (config.topped id value) 1) :
    library.Gives caps name arguments id value := by
  intro state started
  obtain ⟨config, shown, has⟩ := exists_shows library ids started registered
  have hready : (config.holding arguments).Readies instruction := by
    refine Config.readies_holding fun stack hstack => ?_
    obtain ⟨entry, hentry, rfl⟩ := List.mem_map.mp (reads.subset hstack)
    obtain ⟨items, hitems⟩ := has _ (taken entry hentry)
    exact ⟨items, hitems, reads.count_eq _ ▸ Nat.le_add_left _ _⟩
  have hheld := shown.holding fun entry hentry => has _ (taken entry hentry)
  have hgiven : (state.holding [(id, value)]).Shows (config.topped id value) :=
    shown.holding (List.forall_mem_singleton.mpr (has id given))
  exact callWith?_of_attempt found
    (Instruction.attempt_of_does hheld hready (does config has) hgiven)

/-- An instruction whose script `GivesUp` on its arguments `Declines` them. -/
theorem declines_of_givesUp (ids : List StackId)
    (found : library.instructions.get? name = some instruction)
    (registered : ∀ id ∈ .exec :: ids, library.registry.contains id = true)
    (taken : ∀ entry ∈ arguments, entry.1 ∈ ids)
    (ends : ∀ config : Config, (∀ id ∈ ids, config.Has id) →
      (instruction.body caps).GivesUp (config.holding arguments)) :
    library.Declines caps name arguments := by
  refine ⟨instruction, found, fun state started => ?_⟩
  obtain ⟨config, shown, has⟩ := exists_shows library ids started registered
  have hheld := shown.holding fun entry hentry => has _ (taken entry hentry)
  exact Instruction.attempt_of_givesUp (started.counted.holding _) hheld (ends config has)

/-- An answer under a condition is for the stack of its value. -/
theorem fst_mem_of_mem_ite {condition : Prop} [Decidable condition] {value : Value}
    (given : id ∈ ids) :
    ∀ entry ∈ (if condition then some (id, value) else none : Option (StackId × Value)),
      entry.1 ∈ ids := by
  intro entry hentry
  obtain ⟨-, ⟨⟩⟩ := Option.ite_none_right_eq_some.mp hentry
  exact given

/-- The rule for an answer: `Script.Answers` of its body gives `Library.Answers` of the instruction.
-/
theorem answers_of_script {answer : Option (StackId × Value)} (ids : List StackId)
    (found : library.instructions.get? name = some instruction)
    (registered : ∀ id ∈ .exec :: ids, library.registry.contains id = true)
    (taken : ∀ entry ∈ arguments, entry.1 ∈ ids) (given : ∀ entry ∈ answer, entry.1 ∈ ids)
    (reads : instruction.inputs.Perm (arguments.map Prod.fst))
    (answers : ∀ config : Config, (∀ id ∈ ids, config.Has id) →
      (instruction.body caps).Answers (config.holding arguments) config answer) :
    library.Answers caps name arguments answer := by
  match answer, given, answers with
  | some (id, value), given, answers =>
    exact gives_of_does ids found registered taken (given _ rfl) reads answers
  | none, _, answers => exact declines_of_givesUp ids found registered taken answers

/-- What `Declines` comes to nothing: `callWith?` is `none`. -/
theorem Declines.callWith?_eq_none (declines : library.Declines caps name arguments)
    (started : state.From (.ofRegistry library.registry)) :
    library.callWith? caps name arguments state = none := by
  obtain ⟨instruction, found, reverts⟩ := declines
  rw [callWith?, found]
  simp only [reverts state started]

/-- Calls with the same answer are `Alike`. -/
theorem Answers.alike {name' : String} {arguments' : List (StackId × Value)}
    {answer : Option (StackId × Value)} (one : library.Answers caps name arguments answer)
    (other : library.Answers caps name' arguments' answer) :
    library.Alike caps name arguments name' arguments' := by
  intro state started
  match answer, one, other with
  | some (id, value), one, other => exact (one state started).trans (other state started).symm
  | none, one, other =>
    exact (one.callWith?_eq_none started).trans (other.callWith?_eq_none started).symm

/-- The core types that a library offers are registered. -/
theorem Offers.registered {names : List String} (offers : library.Offers ids names)
    (core : ∀ id ∈ ids, Registry.core.contains id = true) :
    ∀ id ∈ ids, library.registry.contains id = true :=
  fun id hid => offers.contains hid (core id hid)

end Library

end PushMachine
