import PushMachine.Script

/-! # What operations do

The operations on a state, told from their results. `State.Did` lists for every operation what it
found and which state it left, and `State.apply_cases` shows that nothing else can happen: the only
way in which an operation does not fit the stacks is that its stack does not exist. What every
operation preserves is preserved by every script (`Script.run_invariant`). -/

namespace PushMachine

namespace State

variable {state : State} {id : StackId} {items : List Value}

/-! ## Reading and replacing a stack -/

/-- A stack that `stack?` finds has a slot of its own. -/
theorem slot_of_stack? (h : state.stack? id = some items) :
    state.slots[id.index]? = some (some items) := by
  rw [stack?, Option.join_eq_some_iff] at h
  exact h

/-- A replaced stack holds the `new` items, if it existed. -/
theorem stack?_setStack_self (h : state.stack? id = some items) (new : List Value) :
    (state.setStack id new).stack? id = some new := by
  have hlt : id.index < state.slots.length :=
    (List.getElem?_eq_some_iff.mp (slot_of_stack? h)).1
  rw [stack?, setStack, List.getElem?_set_self hlt, Option.join_some]

/-- Replacing a stack leaves the others alone: `stack? other` stays for `other ≠ id`. -/
theorem stack?_setStack_of_ne {other : StackId} (h : other ≠ id) (new : List Value) :
    (state.setStack id new).stack? other = state.stack? other := by
  have hne : id.index ≠ other.index := by
    intro heq
    exact h (congrArg StackId.mk heq.symm)
  rw [stack?, setStack, List.getElem?_set_ne hne, stack?]

/-- The `second` of two replacements wins. -/
@[simp] theorem setStack_setStack (first second : List Value) :
    (state.setStack id first).setStack id second = state.setStack id second := by
  rw [setStack, setStack, setStack, List.set_set]

/-- Replacing a stack by its own items changes nothing. -/
theorem setStack_self (h : state.stack? id = some items) : state.setStack id items = state := by
  obtain ⟨hlt, hget⟩ := List.getElem?_eq_some_iff.mp (slot_of_stack? h)
  rw [setStack, ← hget, List.set_getElem_self hlt]

/-- A `change` of a stack that was just replaced applies to the new items. -/
theorem modifyStack_setStack (h : state.stack? id = some items) (new : List Value)
    (change : List Value → List Value) :
    (state.setStack id new).modifyStack id change = state.setStack id (change new) := by
  rw [modifyStack, stack?_setStack_self h]
  exact setStack_setStack _ _

/-! ## Notes in the journal -/

/-- A note touches no stack, so that `stack? id` stays. -/
@[simp] theorem stack?_note (change : Change) :
    (state.note change).stack? id = state.stack? id := by
  rw [note]
  split <;> rfl

/-- A note leaves the inputs alone. -/
@[simp] theorem inputs_note (change : Change) : (state.note change).inputs = state.inputs := by
  rw [note]
  split <;> rfl

/-- A note leaves the printed text alone. -/
@[simp] theorem stdout_note (change : Change) : (state.note change).stdout = state.stdout := by
  rw [note]
  split <;> rfl

/-- A note leaves the count of printed characters alone. -/
@[simp] theorem stdoutLength_note (change : Change) :
    (state.note change).stdoutLength = state.stdoutLength := by
  rw [note]
  split <;> rfl

/-- A note keeps a transaction open or closed (`isOpen`). -/
@[simp] theorem isOpen_note (change : Change) : (state.note change).isOpen = state.isOpen := by
  rw [note]
  split <;> rfl

/-! ## Operations told from their results -/

/-- **What an operation did**: what it found in the state, its result, and the state it left. -/
inductive Did (state : State) : (op : Op) → op.Result → State → Prop where
  /-- An item was pushed onto a stack that exists, and counted in `pushed`. -/
  | push {id : StackId} {value : Value} {items : List Value}
      (found : state.stack? id = some items) :
    Did state (.push id value) ()
      (({ state.setStack id (value :: items) with pushed := state.pushed + 1 }).note (.pushed id))
  /-- The top item was taken and noted as `.popped`. -/
  | pop {id : StackId} {value : Value} {rest : List Value}
      (found : state.stack? id = some (value :: rest)) :
    Did state (.pop id) value ((state.setStack id rest).note (.popped id value))
  /-- The item under `depth` others was looked at. -/
  | peek {id : StackId} {depth : Nat} {value : Value} {items : List Value}
      (found : state.stack? id = some items) (item : items[depth]? = some value) :
    Did state (.peek id depth) value state
  /-- The items were counted. -/
  | depth {id : StackId} : Did state (.depth id) (state.depth id) state
  /-- The items were thrown away and noted as `.flushed`. -/
  | flush {id : StackId} {items : List Value} (found : state.stack? id = some items) :
    Did state (.flush id) () ((state.setStack id []).note (.flushed id items))
  /-- The item under `depth` others was taken out and noted as `.removed`. -/
  | yank {id : StackId} {depth : Nat} {value : Value} {items : List Value}
      (found : state.stack? id = some items) (item : items[depth]? = some value) :
    Did state (.yank id depth) value
      ((state.setStack id (items.eraseIdx depth)).note (.removed id depth value))
  /-- An item was inserted under `depth` others, at the bottom if the stack was too short. -/
  | shove {id : StackId} {depth : Nat} {value : Value} {items : List Value}
      (found : state.stack? id = some items) :
    Did state (.shove id depth value) ()
      (({ state.setStack id (items.insertIdx (min depth items.length) value) with
        pushed := state.pushed + 1 }).note (.inserted id (min depth items.length)))
  /-- A text was printed that leaves at most `cap` characters. -/
  | print {text : String} {cap : Nat} (fits : state.stdoutLength + text.length ≤ cap) :
    Did state (.print text cap) ()
      { state.note (.printed state.stdout.utf8ByteSize) with
        stdout := state.stdout ++ text, stdoutLength := state.stdoutLength + text.length }

/-- The items of a stack that exists. -/
theorem itemsOrFault_of_found (h : state.stack? id = some items) :
    state.itemsOrFault id = .ok items := by
  rw [itemsOrFault, State.items, h]
  rfl

/-- A stack that does not exist is the mismatch `.missingStack`. -/
theorem itemsOrFault_of_missing (h : state.stack? id = none) :
    state.itemsOrFault id = .error (.typeError (.missingStack id)) := by
  rw [itemsOrFault, State.items, h]
  rfl

end State

/-- The stack that has to exist for an operation. Counting and printing have `none`. -/
def Op.stack? : Op → Option StackId
  | .push id _ => some id
  | .pop id => some id
  | .peek id _ => some id
  | .depth _ => none
  | .flush id => some id
  | .yank id _ => some id
  | .shove id _ _ => some id
  | .print _ _ => none

namespace State

variable {state : State} {id : StackId} {op : Op}

/-- An operation on a stack that does not exist fails with `.missingStack`. -/
theorem apply_of_missing (hop : op.stack? = some id) (h : state.stack? id = none) :
    state.apply op = .error (.typeError (.missingStack id)) := by
  have hitems := itemsOrFault_of_missing h
  -- Counting and printing address no stack that could be missing.
  cases op with
  | push other value =>
    obtain rfl : other = id := by simpa [Op.stack?] using hop
    simp only [apply, State.push, State.items, h]
    rfl
  | pop other =>
    obtain rfl : other = id := by simpa [Op.stack?] using hop
    rw [apply, State.pop, hitems]
    rfl
  | peek other depth =>
    obtain rfl : other = id := by simpa [Op.stack?] using hop
    rw [apply, State.peek, hitems]
    rfl
  | depth other => simp [Op.stack?] at hop
  | flush other =>
    obtain rfl : other = id := by simpa [Op.stack?] using hop
    rw [apply, State.flush, hitems]
    rfl
  | yank other depth =>
    obtain rfl : other = id := by simpa [Op.stack?] using hop
    rw [apply, State.yank, hitems]
    rfl
  | shove other depth value =>
    obtain rfl : other = id := by simpa [Op.stack?] using hop
    rw [apply, State.shove, hitems]
    rfl
  | print text cap => simp [Op.stack?] at hop

/-- Finding no item at a depth (`tooDeep`) is not a mismatch. -/
theorem tooDeep_ne_typeError (depth : Nat) (fault : TypeFault) :
    tooDeep depth ≠ .typeError fault := by
  rw [tooDeep]
  split <;> simp

/-- Looking at an item that is there. -/
theorem apply_peek {items : List Value} {depth : Nat} {value : Value}
    (found : state.stack? id = some items) (item : items[depth]? = some value) :
    state.apply (.peek id depth) = .ok (value, state) := by
  simp only [apply, State.peek, itemsOrFault_of_found found, bind, Except.bind, item]
  rfl

/-- Looking for an item that is not there fails with `tooDeep depth`. -/
theorem apply_peek_tooDeep {items : List Value} {depth : Nat}
    (found : state.stack? id = some items) (missing : items[depth]? = none) :
    state.apply (.peek id depth) = .error (tooDeep depth) := by
  simp only [apply, State.peek, itemsOrFault_of_found found, bind, Except.bind, missing]
  rfl

/-- Taking out an item that is there. -/
theorem apply_yank {items : List Value} {depth : Nat} {value : Value}
    (found : state.stack? id = some items) (item : items[depth]? = some value) :
    state.apply (.yank id depth) =
      .ok (value, (state.setStack id (items.eraseIdx depth)).note (.removed id depth value)) := by
  simp only [apply, State.yank, itemsOrFault_of_found found, bind, Except.bind, item]
  rfl

/-- Taking out an item that is not there fails with `tooDeep depth`. -/
theorem apply_yank_tooDeep {items : List Value} {depth : Nat}
    (found : state.stack? id = some items) (missing : items[depth]? = none) :
    state.apply (.yank id depth) = .error (tooDeep depth) := by
  simp only [apply, State.yank, itemsOrFault_of_found found, bind, Except.bind, missing]
  rfl

/-- Putting an item in. -/
theorem apply_shove {items : List Value} (found : state.stack? id = some items) (depth : Nat)
    (value : Value) :
    state.apply (.shove id depth value) =
      .ok ((), ({ state.setStack id (items.insertIdx (min depth items.length) value) with
        pushed := state.pushed + 1 }).note (.inserted id (min depth items.length))) := by
  rw [apply, State.shove, itemsOrFault_of_found found]
  rfl

/-- On a stack that exists, an operation did what `Did` says or failed without a mismatch. -/
theorem apply_cases_of_found (found : ∀ id, op.stack? = some id → (state.stack? id).isSome) :
    (∃ result after, state.apply op = .ok (result, after) ∧ state.Did op result after) ∨
      ∃ fault, state.apply op = .error fault ∧ ∀ mismatch, fault ≠ .typeError mismatch := by
  -- Where its stack is there, an operation fails for too few items or too much text only.
  cases op with
  | push id value =>
    obtain ⟨items, h⟩ := Option.isSome_iff_exists.mp (found id rfl)
    refine .inl ⟨(), _, ?_, .push h⟩
    simp only [apply, State.push, State.items, h]
    rfl
  | pop id =>
    obtain ⟨items, h⟩ := Option.isSome_iff_exists.mp (found id rfl)
    rw [apply, State.pop, itemsOrFault_of_found h]
    cases items with
    | nil => exact .inr ⟨.revert, rfl, nofun⟩
    | cons value rest => exact .inl ⟨value, _, rfl, .pop h⟩
  | peek id depth =>
    obtain ⟨items, h⟩ := Option.isSome_iff_exists.mp (found id rfl)
    cases hitem : items[depth]? with
    | none =>
      exact .inr ⟨tooDeep depth, apply_peek_tooDeep h hitem, tooDeep_ne_typeError depth⟩
    | some value => exact .inl ⟨value, state, apply_peek h hitem, .peek h hitem⟩
  | depth id => exact .inl ⟨_, _, rfl, .depth⟩
  | flush id =>
    obtain ⟨items, h⟩ := Option.isSome_iff_exists.mp (found id rfl)
    rw [apply, State.flush, itemsOrFault_of_found h]
    exact .inl ⟨(), _, rfl, .flush h⟩
  | yank id depth =>
    obtain ⟨items, h⟩ := Option.isSome_iff_exists.mp (found id rfl)
    cases hitem : items[depth]? with
    | none =>
      exact .inr ⟨tooDeep depth, apply_yank_tooDeep h hitem, tooDeep_ne_typeError depth⟩
    | some value => exact .inl ⟨value, _, apply_yank h hitem, .yank h hitem⟩
  | shove id depth value =>
    obtain ⟨items, h⟩ := Option.isSome_iff_exists.mp (found id rfl)
    exact .inl ⟨(), _, apply_shove h depth value, .shove h⟩
  | print text cap =>
    rw [apply, State.print]
    by_cases hlt : cap < state.stdoutLength + text.length
    · rw [if_pos hlt]
      exact .inr ⟨.revert, rfl, nofun⟩
    · rw [if_neg hlt]
      refine .inl ⟨(), _, ?_, .print (Nat.le_of_not_lt hlt)⟩
      rw [note]
      split <;> rfl

/-- **What an operation can do**: what `Did` says, or fail; and it is a mismatch only on a stack
that does not exist. -/
theorem apply_cases (state : State) (op : Op) :
    (∃ result after, state.apply op = .ok (result, after) ∧ state.Did op result after) ∨
      ∃ fault, state.apply op = .error fault ∧
        ∀ mismatch, fault = .typeError mismatch →
          ∃ id, op.stack? = some id ∧ state.stack? id = none := by
  -- Whether the stack is there is decided first; no other mismatch is left then.
  by_cases hmissing : ∃ id, op.stack? = some id ∧ state.stack? id = none
  · obtain ⟨id, hop, hid⟩ := hmissing
    exact .inr ⟨_, apply_of_missing hop hid, fun _ _ => ⟨id, hop, hid⟩⟩
  · have found : ∀ id, op.stack? = some id → (state.stack? id).isSome := by
      intro id hop
      rw [Option.isSome_iff_ne_none]
      intro hnone
      exact hmissing ⟨id, hop, hnone⟩
    rcases apply_cases_of_found found with hdid | ⟨fault, happly, hfault⟩
    · exact .inl hdid
    · exact .inr ⟨fault, happly, fun mismatch heq => absurd heq (hfault mismatch)⟩

/-! ## What operations leave alone -/

/-- Every operation leaves the inputs alone. -/
theorem Did.inputs_eq {result : op.Result} {after : State} (did : state.Did op result after) :
    after.inputs = state.inputs := by
  cases did with
  | push found | pop found | flush found | yank found item | shove found | print fits =>
    exact inputs_note _
  | peek found item | depth => rfl

/-- No operation opens or closes a transaction. -/
theorem Did.isOpen_eq {result : op.Result} {after : State} (did : state.Did op result after) :
    after.isOpen = state.isOpen := by
  cases did with
  | push found | pop found | flush found | yank found item | shove found | print fits =>
    exact isOpen_note _
  | peek found item | depth => rfl

/-- The count `stdoutLength` of printed characters is the length of `stdout`. -/
def Counted (state : State) : Prop := state.stdoutLength = state.stdout.length

/-- A note leaves the count right. -/
theorem Counted.note (counted : state.Counted) (change : Change) : (state.note change).Counted := by
  rw [Counted, stdoutLength_note, stdout_note]
  exact counted

/-- Every operation keeps the count of printed characters right (`Counted`). -/
theorem Did.counted {result : op.Result} {after : State} (did : state.Did op result after)
    (counted : state.Counted) : after.Counted := by
  cases did with
  | push found | pop found | flush found | yank found item | shove found =>
    refine Counted.note ?_ _
    exact counted
  | peek found item | depth => exact counted
  | print fits =>
    rw [Counted, String.length_append, counted]

end State

/-- A script goes on with `next result` behind an operation that succeeds. -/
theorem Script.run_act_of_apply {α : Type} {state after : State} {op : Op} {result : op.Result}
    {next : op.Result → Script α} (h : state.apply op = .ok (result, after)) :
    (Script.act op next).run state = (next result).run after := by
  rw [run, h]

/-- A script fails where an operation fails. -/
theorem Script.run_act_of_failed {α : Type} {state : State} {op : Op} {fault : Fault}
    {next : op.Result → Script α} (h : state.apply op = .error fault) :
    (Script.act op next).run state = (.error fault, state) := by
  rw [run, h]

/-- **Invariants of scripts**: what every operation preserves, as `State.Did` lists them, holds
after a script of any length, whether it is done or fails. -/
theorem Script.run_invariant {α : Type} (script : Script α) (inv : State → Prop)
    (step : ∀ {state op result after}, State.Did state op result after → inv state → inv after)
    {state : State} (h : inv state) : inv (script.run state).2 := by
  induction script generalizing state with
  | done result => exact h
  | fail fault => exact h
  | act op next ih =>
    rw [run]
    rcases state.apply_cases op with ⟨result, after, happly, did⟩ | ⟨fault, happly, -⟩
    · rw [happly]
      exact ih result (step did h)
    · rw [happly]
      exact h

end PushMachine
