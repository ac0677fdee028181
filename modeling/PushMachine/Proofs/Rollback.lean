import Mathlib.Data.List.InsertIdx
import Mathlib.Data.String.Basic
import PushMachine.Machine
import PushMachine.Proofs.Operations

/-! # Rollback

An instruction that gives up has changed nothing. `State.Did.rollback_eq` is the step: after one
more operation a rollback leads to the same state as before it, because the entry that the operation
noted takes exactly its change back. `Script.run_rollback` carries this through a script of any
length, and so a call that does not commit leaves the state as it was. -/

namespace PushMachine

namespace State

variable {state : State}

/-! ## Taking back one change -/

/-- The beginning `kept` of a text is found again by its number of bytes. -/
theorem takeBytes_append (kept added : List Char) :
    takeBytes (String.utf8Len kept) (kept ++ added) = kept := by
  induction kept with
  | nil =>
    cases added with
    | nil => rfl
    | cons c rest =>
      rw [List.nil_append, takeBytes, String.utf8Len, if_neg]
      exact Nat.not_le.mpr c.utf8Size_pos
  | cons c rest ih =>
    rw [List.cons_append, takeBytes, String.utf8Len, if_pos (Nat.le_add_left _ _),
      Nat.add_sub_cancel, ih]

/-- Cutting a text off behind the number of bytes of `kept` undoes an addition. -/
theorem takeBytes_toList_append (kept added : String) :
    String.ofList (takeBytes kept.utf8ByteSize (kept ++ added).toList) = kept := by
  have hsize : kept.utf8ByteSize = String.utf8Len kept.toList := by
    rw [← String.utf8ByteSize_ofList, String.ofList_toList]
  rw [hsize, String.toList_append, takeBytes_append, String.ofList_toList]

/-- A rollback takes back the changes of the `journal` outside the transaction, the last one first:
it is a fold of `takeBack`. -/
theorem rollback_eq_foldl (state : State) :
    state.rollback = state.journal.foldl takeBack state.snapshot := rfl

/-- A noted change that `takeBack` undoes makes no difference to a rollback. -/
theorem rollback_note {changed : State} {change : Change} (isOpen : changed.isOpen = true)
    (journal : changed.journal = state.journal)
    (undone : changed.snapshot.takeBack change = state.snapshot) :
    (changed.note change).rollback = state.rollback := by
  have hnote : (changed.note change).journal = change :: state.journal := by
    rw [note, if_pos isOpen, journal]
  have hsnapshot : (changed.note change).snapshot = changed.snapshot := by
    rw [note, if_pos isOpen]
    rfl
  rw [rollback_eq_foldl, hnote, hsnapshot, List.foldl_cons, undone, rollback_eq_foldl]

/-! ## One operation -/

/-- A state inside a transaction, with the printed characters counted right (`Counted`). -/
structure Tracked (state : State) : Prop where
  /-- A transaction is open. -/
  isOpen : state.isOpen = true
  /-- The count of printed characters is right. -/
  counted : state.Counted

/-- Every operation leaves a state `Tracked`. -/
theorem Did.tracked {op : Op} {result : op.Result} {after : State}
    (did : state.Did op result after) (tracked : state.Tracked) : after.Tracked :=
  ⟨did.isOpen_eq.trans tracked.isOpen, did.counted tracked.counted⟩

/-- A stack that was changed, and changed back by `restore`, is the stack that was there. -/
theorem takeBack_setStack {id : StackId} {items new : List Value}
    {restore : List Value → List Value} (found : state.stack? id = some items)
    (restored : restore new = items) :
    (state.setStack id new).snapshot.modifyStack id restore = state.snapshot := by
  have hfound : state.snapshot.stack? id = some items := found
  calc (state.setStack id new).snapshot.modifyStack id restore
      = state.snapshot.setStack id (restore new) := modifyStack_setStack hfound new restore
    _ = state.snapshot.setStack id items := by rw [restored]
    _ = state.snapshot := setStack_self hfound

/-- **The step**: a rollback after one more operation leads to the same state,
`after.rollback = state.rollback`. -/
theorem Did.rollback_eq {op : Op} {result : op.Result} {after : State}
    (did : state.Did op result after) (tracked : state.Tracked) :
    after.rollback = state.rollback := by
  cases did with
  | push found => exact rollback_note tracked.isOpen rfl (takeBack_setStack found rfl)
  | pop found => exact rollback_note tracked.isOpen rfl (takeBack_setStack found rfl)
  | peek found item => rfl
  | depth => rfl
  | flush found => exact rollback_note tracked.isOpen rfl (takeBack_setStack found rfl)
  | @yank id depth value items found item =>
    -- The entry's depth is right because the stack has its length from then again.
    obtain ⟨hlt, hvalue⟩ := List.getElem?_eq_some_iff.mp item
    refine rollback_note tracked.isOpen rfl (takeBack_setStack found ?_)
    rw [← hvalue, List.insertIdx_eraseIdx_getElem hlt]
  | @shove id depth value items found =>
    refine rollback_note tracked.isOpen rfl (takeBack_setStack found ?_)
    exact List.eraseIdx_insertIdx_self value
  | @print text cap fits =>
    -- The text is added behind the note, and the note does not look at the text.
    have hafter : { state.note (.printed state.stdout.utf8ByteSize) with
          stdout := state.stdout ++ text, stdoutLength := state.stdoutLength + text.length }
        = ({ state with stdout := state.stdout ++ text
                        stdoutLength := state.stdoutLength + text.length } : State).note
            (.printed state.stdout.utf8ByteSize) := by
      rw [note, note, if_pos tracked.isOpen]
      exact (if_pos tracked.isOpen).symm
    rw [hafter]
    refine rollback_note tracked.isOpen rfl ?_
    have hcounted : state.stdoutLength = state.stdout.length := tracked.counted
    simp only [takeBack, snapshot, takeBytes_toList_append, hcounted]

end State

/-! ## Scripts -/

/-- **The run**: after a script of any length, whether it is done or fails, a rollback leads to the
same state as `state.rollback` before it. -/
theorem Script.run_rollback {α : Type} (script : Script α) {state : State}
    (tracked : state.Tracked) : (script.run state).2.rollback = state.rollback := by
  refine (script.run_invariant (fun after => after.Tracked ∧ after.rollback = state.rollback) ?_
    ⟨tracked, rfl⟩).2
  rintro before op result after did ⟨htracked, hrollback⟩
  exact ⟨did.tracked htracked, (did.rollback_eq htracked).trans hrollback⟩

/-- A fresh transaction is rolled back to the `snapshot` of the state it was opened in. -/
theorem State.rollback_openTransaction (state : State) :
    state.openTransaction.rollback = state.snapshot := rfl

/-- An instruction that was tried in a fresh transaction can be taken back to the `snapshot`,
however it ended. -/
theorem Instruction.eval_rollback (instruction : Instruction) (caps : SizeCaps) {state : State}
    (counted : state.Counted) :
    (instruction.eval caps state.openTransaction).2.rollback = state.snapshot := by
  have tracked : state.openTransaction.Tracked := ⟨rfl, counted⟩
  rw [eval]
  split
  · rw [Script.run_rollback _ tracked, State.rollback_openTransaction]
  · exact state.rollback_openTransaction

/-! ## Calls -/

namespace Library

/-- **The state after a call** is that of a body which succeeded and did not push more than
`growthCap`, or the one from before the call. -/
theorem call_state_cases (library : Library) (limits : Limits) (name : String) {state : State}
    (counted : state.Counted) :
    (library.call limits name state).state = state ∨
      (library.call limits name state).state = state.snapshot ∨
      ∃ instruction after, library.instructions.get? name = some instruction ∧
        instruction.eval limits.toSizeCaps state.openTransaction = (.ok (), after) ∧
        after.pushed ≤ limits.growthCap ∧
        (library.call limits name state).state = after.snapshot := by
  rw [call]
  cases hfound : library.instructions.get? name with
  | none => exact .inl rfl
  | some instruction =>
    -- A body that fails and one that pushes too much are rolled back alike.
    have hrollback := instruction.eval_rollback limits.toSizeCaps counted
    rcases heval : instruction.eval limits.toSizeCaps state.openTransaction with ⟨result, after⟩
    rw [heval] at hrollback
    cases result with
    | ok done =>
      simp only [heval]
      split
      next => exact .inr (.inl hrollback)
      next hfits => exact .inr (.inr ⟨instruction, after, rfl, heval, Nat.le_of_not_lt hfits, rfl⟩)
    | error fault =>
      simp only [heval]
      cases fault <;> exact .inr (.inl hrollback)

/-- **Calls are all or nothing**: a call that does not commit, because the instruction was not
ready, gave up, did not fit the stacks or pushed more than `growthCap`, leaves the stacks, the
inputs and the printed text as they were, and no transaction behind. -/
theorem call_restores_state (library : Library) (limits : Limits) (name : String)
    (instruction : Instruction) (state : State)
    (found : library.instructions.get? name = some instruction)
    (counted : state.stdoutLength = state.stdout.length)
    (uncommitted : ¬ ∃ after,
      instruction.eval limits.toSizeCaps state.openTransaction = (.ok (), after) ∧
        after.pushed ≤ limits.growthCap) :
    (library.call limits name state).state =
      { state with journal := [], isOpen := false, pushed := 0 } := by
  have hrollback := instruction.eval_rollback limits.toSizeCaps counted
  rw [call, found]
  rcases heval : instruction.eval limits.toSizeCaps state.openTransaction with ⟨result, after⟩
  rw [heval] at hrollback
  cases result with
  | ok _ =>
    -- The body succeeded, so it pushed too much.
    have hlt : limits.growthCap < after.pushed := by
      rw [← Nat.not_le]
      exact fun hle => uncommitted ⟨after, heval, hle⟩
    simp only [heval, if_pos hlt]
    exact hrollback
  | error fault =>
    simp only [heval]
    cases fault <;> exact hrollback

/-- An instruction that pushes, takes out, throws away, inserts and prints leaves no trace when it
meets a missing stack at last. -/
theorem call_restores_state_of_missing_stack :
    let body : Script Unit := do
      Script.push .int (.int 7)
      let value ← Script.yank .int 1
      Script.flush .int
      Script.shove .int 5 value
      Script.print "é" 9
      let _ ← Script.pop ⟨40⟩
    let library : Library := ⟨.core, ⟨[⟨"mixed", [.int], [.int], 0, fun _ => body⟩]⟩⟩
    let state : State :=
      { slots := [some [], some [], some [], some [.int 1, .int 2]], stdout := "ü"
        stdoutLength := 1 }
    (library.call {} "mixed" state).stop =
        some (.typeError (.operation (.missingStack ⟨40⟩))) ∧
      (library.call {} "mixed" state).state = state :=
  ⟨rfl, call_restores_state _ _ _ _ _ rfl rfl (by rintro ⟨after, h, -⟩; cases h)⟩

end Library

end PushMachine
