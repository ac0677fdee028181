import PushMachine.Proofs.Operations

/-! # Addressing items by depth

An item is addressed by the number of items above it. A stack is stored bottom first, though, and
the depth is turned into an index from the bottom in machine words, where one more than the largest
depth is zero. Finding an item takes one more than the depth off the length, inserting one takes the
depth off it or goes to the bottom (`Stored.itemIndex?`, `Stored.insertionIndex`). The two fit
together at the top, at the bottom and past it: what is taken out is put back by the same depth, and
what is put in is found under as many items as there were room for.

The largest depth is the one exception. No stack reaches that far, and yet the index comes out as
the place behind the top item, so looking there goes out of bounds instead of giving up. -/

namespace PushMachine

/-! ## Stacks as they are stored -/

namespace Stored

variable {items above below : List Value} {value : Value} {length depth : UInt64}

/-- The index of the item under `depth` others in a stack of `length` items, or none if there are
too few. -/
def itemIndex? (length depth : UInt64) : Option UInt64 :=
  if depth + 1 ≤ length then some (length - (depth + 1)) else none

/-- The index at which an item has `depth` others above it, or that of the bottom if there are too
few. -/
def insertionIndex (length depth : UInt64) : UInt64 := if depth ≤ length then length - depth else 0

/-- Finds an item at `depth`, with its index. -/
def fetch (stored : List Value) (depth : UInt64) : Except Fault (UInt64 × Value) :=
  match itemIndex? (.ofNat stored.length) depth with
  | none => .error .revert
  | some index =>
    match stored[index.toNat]? with
    | none => .error .outOfBounds
    | some value => .ok (index, value)

/-- Takes the item at `depth` out; without one the stack stays as it is. -/
def remove (stored : List Value) (depth : UInt64) : List Value :=
  match fetch stored depth with
  | .error _ => stored
  | .ok (index, _) => stored.eraseIdx index.toNat

/-- Puts `value` in at `depth`. -/
def insert (stored : List Value) (depth : UInt64) (value : Value) : List Value :=
  stored.insertIdx (insertionIndex (.ofNat stored.length) depth).toNat value

/-! ### Items between others -/

/-- The item behind some others is found by their number, `above.length`. -/
theorem getElem?_length_append (above below : List Value) (value : Value) :
    (above ++ value :: below)[above.length]? = some value := by
  rw [List.getElem?_append_right (Nat.le_refl _), Nat.sub_self]
  rfl

/-- The item behind some others is taken out by their number, `above.length`. -/
theorem eraseIdx_length_append (above below : List Value) (value : Value) :
    (above ++ value :: below).eraseIdx above.length = above ++ below := by
  rw [List.eraseIdx_append_of_length_le (Nat.le_refl _), Nat.sub_self]
  rfl

/-- An item is put behind some others by their number, `above.length`. -/
theorem insertIdx_length_append (above below : List Value) (value : Value) :
    (above ++ below).insertIdx above.length value = above ++ value :: below := by
  induction above with
  | nil => rfl
  | cons first rest ih => exact congrArg (first :: ·) ih

/-- The items above one are stored behind it, and those below it in front. -/
theorem reverse_append_cons (above below : List Value) (value : Value) :
    (above ++ value :: below).reverse = below.reverse ++ value :: above.reverse := by
  rw [List.reverse_append, List.reverse_cons, List.append_assoc, List.singleton_append]

/-- A depth that is reached splits the items at the one that it addresses: `place` items are above
it. -/
theorem exists_item {place : Nat} (h : place < items.length) :
    ∃ above value below, items = above ++ value :: below ∧ above.length = place := by
  refine ⟨items.take place, items[place], items.drop (place + 1), ?_,
    List.length_take_of_le (Nat.le_of_lt h)⟩
  rw [← List.drop_eq_getElem_cons h, List.take_append_drop]

/-- Every depth splits the items below `min place items.length` of them. -/
theorem exists_place (items : List Value) (place : Nat) :
    ∃ above below, items = above ++ below ∧ above.length = min place items.length :=
  ⟨items.take place, items.drop place, (List.take_append_drop place items).symm, List.length_take⟩

/-! ### Indices -/

/-- One more than a depth that is not `State.maxDepth` does not wrap around. -/
theorem toNat_add_one (h : depth.toNat ≠ State.maxDepth) : (depth + 1).toNat = depth.toNat + 1 := by
  have hlt := depth.toNat_lt
  rw [State.maxDepth] at h
  rw [UInt64.toNat_add, UInt64.toNat_one]
  exact Nat.mod_eq_of_lt (by omega)

/-- One more than `State.maxDepth` is zero. -/
theorem add_one_eq_zero (h : depth.toNat = State.maxDepth) : depth + 1 = 0 := by
  obtain rfl : depth = .ofNat State.maxDepth := UInt64.toNat_inj.mp (h.trans (by decide))
  decide

/-- A depth that is reached has an `itemIndex?`, with as many items above it. -/
theorem itemIndex?_of_lt (h : depth.toNat < length.toNat) :
    ∃ index, itemIndex? length depth = some index ∧
      index.toNat + (depth.toNat + 1) = length.toNat := by
  have hsucc : (depth + 1).toNat = depth.toNat + 1 := by
    -- The length is a machine word, so a depth below it leaves room for one more.
    refine toNat_add_one fun hmax => ?_
    have hlength := length.toNat_lt
    rw [hmax, State.maxDepth] at h
    omega
  have hle : depth + 1 ≤ length := UInt64.le_iff_toNat_le.mpr (hsucc.symm ▸ h)
  refine ⟨_, if_pos hle, ?_⟩
  rw [UInt64.toNat_sub_of_le _ _ hle, hsucc]
  exact Nat.sub_add_cancel h

/-- A depth that is not reached has no `itemIndex?`, unless it is `State.maxDepth`. -/
theorem itemIndex?_of_le (h : length.toNat ≤ depth.toNat) (hne : depth.toNat ≠ State.maxDepth) :
    itemIndex? length depth = none := by
  refine if_neg fun hle => ?_
  rw [UInt64.le_iff_toNat_le, toNat_add_one hne] at hle
  omega

/-- The largest depth has the index behind the top item: `itemIndex?` gives `length`. -/
theorem itemIndex?_of_max (h : depth.toNat = State.maxDepth) :
    itemIndex? length depth = some length := by
  rw [itemIndex?, add_one_eq_zero h, if_pos UInt64.zero_le, UInt64.sub_zero]

/-- The index for inserting an item has `min depth length` items above it. -/
theorem toNat_insertionIndex (length depth : UInt64) :
    (insertionIndex length depth).toNat + min depth.toNat length.toNat = length.toNat := by
  rw [insertionIndex]
  split
  next hle =>
    rw [UInt64.toNat_sub_of_le _ _ hle]
    have := UInt64.le_iff_toNat_le.mp hle
    omega
  next hlt =>
    have := UInt64.lt_iff_toNat_lt.mp (UInt64.not_le.mp hlt)
    rw [UInt64.toNat_zero]
    omega

/-! ### Finding, taking out and putting in -/

/-- The number of items of a stack, if it fits a machine word. -/
theorem toNat_ofNat_length (fits : items.length < UInt64.size) :
    (UInt64.ofNat items.reverse.length).toNat = items.length := by
  rw [List.length_reverse]
  exact UInt64.toNat_ofNat_of_lt' fits

/-- A depth that is reached finds its item: `fetch` gives `value`. -/
theorem fetch_of_reached (fits : (above ++ value :: below).length < UInt64.size)
    (hdepth : depth.toNat = above.length) :
    ∃ index, fetch (above ++ value :: below).reverse depth = .ok (index, value) ∧
      index.toNat = below.reverse.length := by
  have hlength := toNat_ofNat_length fits
  rw [List.length_append, List.length_cons] at hlength
  have hlt : depth.toNat < (UInt64.ofNat (above ++ value :: below).reverse.length).toNat := by omega
  obtain ⟨index, hindex, hsum⟩ := itemIndex?_of_lt hlt
  -- In the stack as it is stored, the items below are those in front of the index.
  have hbelow : index.toNat = below.reverse.length := by
    rw [List.length_reverse]
    omega
  refine ⟨index, ?_, hbelow⟩
  rw [fetch, hindex, reverse_append_cons]
  simp only [hbelow, getElem?_length_append]

/-- A depth that is not reached gives up, and `State.maxDepth` goes out of bounds. -/
theorem fetch_of_missed (fits : items.length < UInt64.size) (h : items.length ≤ depth.toNat) :
    fetch items.reverse depth = .error (State.tooDeep depth.toNat) := by
  have hlength := toNat_ofNat_length fits
  rw [fetch, State.tooDeep]
  by_cases hmax : depth.toNat = State.maxDepth
  · -- The index is the number of items.
    have hnone : items.reverse[items.length]? = none :=
      List.getElem?_eq_none (Nat.le_of_eq List.length_reverse)
    rw [itemIndex?_of_max hmax, if_pos hmax]
    simp only [hlength, hnone]
  · rw [itemIndex?_of_le (hlength.symm ▸ h) hmax, if_neg hmax]

/-- Taking out the item of a depth that is reached leaves `above ++ below`. -/
theorem remove_of_reached (fits : (above ++ value :: below).length < UInt64.size)
    (hdepth : depth.toNat = above.length) :
    (remove (above ++ value :: below).reverse depth).reverse = above ++ below := by
  obtain ⟨index, hfetch, hindex⟩ := fetch_of_reached fits hdepth
  rw [remove, hfetch]
  simp only [hindex]
  rw [reverse_append_cons, eraseIdx_length_append, List.reverse_append, List.reverse_reverse,
    List.reverse_reverse]

/-- An item is put in below as many as `depth` asks for, or below all of them. -/
theorem insert_eq (fits : (above ++ below).length < UInt64.size)
    (habove : above.length = min depth.toNat (above ++ below).length) (value : Value) :
    (insert (above ++ below).reverse depth value).reverse = above ++ value :: below := by
  have hlength := toNat_ofNat_length fits
  have hindex : (insertionIndex (.ofNat (above ++ below).reverse.length) depth).toNat =
      below.reverse.length := by
    have hsum := toNat_insertionIndex (.ofNat (above ++ below).reverse.length) depth
    rw [hlength, ← habove, List.length_append, Nat.add_comm] at hsum
    rw [Nat.add_left_cancel hsum, List.length_reverse]
  rw [insert, hindex, List.reverse_append, insertIdx_length_append, reverse_append_cons,
    List.reverse_reverse, List.reverse_reverse]

end Stored

/-! ## The operations of a state -/

namespace State

open Stored

variable {state : State} {id : StackId} {items above below : List Value} {value : Value}
  {place : Nat}

/-- A note makes no difference outside of a transaction: `snapshot` does not see it. -/
theorem snapshot_note (state : State) (change : Change) :
    (state.note change).snapshot = state.snapshot := by
  rw [note]
  split <;> rfl

/-- Looking at an item that is there: `items[place]?` is what `peek` gives. -/
theorem run_peek (found : state.stack? id = some items) (item : items[place]? = some value) :
    (Script.peek id place).run state = (.ok value, state) :=
  Script.run_act_of_apply (apply_peek found item)

/-- Taking out an item that is there: `items[place]?` is what `yank` gives. -/
theorem run_yank (found : state.stack? id = some items) (item : items[place]? = some value) :
    ∃ after, (Script.yank id place).run state = (.ok value, after) ∧
      after.snapshot = (state.setStack id (items.eraseIdx place)).snapshot :=
  ⟨_, Script.run_act_of_apply (apply_yank found item), snapshot_note _ _⟩

/-- Looking for an item that is not there, `items.length ≤ place`, changes nothing. -/
theorem run_peek_tooDeep (found : state.stack? id = some items) (h : items.length ≤ place) :
    (Script.peek id place).run state = (.error (tooDeep place), state) :=
  Script.run_act_of_failed (apply_peek_tooDeep found (List.getElem?_eq_none h))

/-- Taking out an item that is not there, `items.length ≤ place`, changes nothing. -/
theorem run_yank_tooDeep (found : state.stack? id = some items) (h : items.length ≤ place) :
    (Script.yank id place).run state = (.error (tooDeep place), state) :=
  Script.run_act_of_failed (apply_yank_tooDeep found (List.getElem?_eq_none h))

/-- Putting an item in. -/
theorem run_shove (found : state.stack? id = some items) (place : Nat) (value : Value) :
    ∃ after, (Script.shove id place value).run state = (.ok (), after) ∧
      after.snapshot =
        (state.setStack id (items.insertIdx (min place items.length) value)).snapshot :=
  ⟨_, Script.run_act_of_apply (apply_shove found place value), snapshot_note _ _⟩

/-- **Looking at an item** is `fetch` in the stack as it is stored. -/
theorem run_peek_eq_fetch (found : state.stack? id = some items) (fits : items.length < UInt64.size)
    (depth : UInt64) :
    (Script.peek id depth.toNat).run state =
      ((fetch items.reverse depth).map Prod.snd, state) := by
  rcases Nat.lt_or_ge depth.toNat items.length with hlt | hge
  · obtain ⟨above, value, below, rfl, hdepth⟩ := exists_item hlt
    obtain ⟨index, hfetch, -⟩ := fetch_of_reached fits hdepth.symm
    rw [hfetch, ← hdepth]
    exact run_peek found (getElem?_length_append above below value)
  · rw [fetch_of_missed fits hge]
    exact run_peek_tooDeep found hge

/-- **Taking an item out** is `fetch` in the stack as it is stored, and `remove` there. -/
theorem run_yank_eq_fetch (found : state.stack? id = some items) (fits : items.length < UInt64.size)
    (depth : UInt64) :
    ∃ after, (Script.yank id depth.toNat).run state =
        ((fetch items.reverse depth).map Prod.snd, after) ∧
      after.snapshot = (state.setStack id (remove items.reverse depth).reverse).snapshot := by
  rcases Nat.lt_or_ge depth.toNat items.length with hlt | hge
  · obtain ⟨above, value, below, rfl, hdepth⟩ := exists_item hlt
    obtain ⟨index, hfetch, -⟩ := fetch_of_reached fits hdepth.symm
    have hrun := run_yank found (getElem?_length_append above below value)
    rw [eraseIdx_length_append, hdepth] at hrun
    rw [hfetch, remove_of_reached fits hdepth.symm]
    exact hrun
  · refine ⟨state, ?_, ?_⟩
    · rw [fetch_of_missed fits hge]
      exact run_yank_tooDeep found hge
    · rw [remove, fetch_of_missed fits hge]
      simp only [List.reverse_reverse, setStack_self found]

/-- **Putting an item in** is `insert` into the stack as it is stored. -/
theorem run_shove_eq_insert (found : state.stack? id = some items)
    (fits : items.length < UInt64.size) (depth : UInt64) (value : Value) :
    ∃ after, (Script.shove id depth.toNat value).run state = (.ok (), after) ∧
      after.snapshot =
        (state.setStack id (insert items.reverse depth value).reverse).snapshot := by
  obtain ⟨above, below, rfl, habove⟩ := exists_place items depth.toNat
  have hrun := run_shove found depth.toNat value
  rw [← habove, insertIdx_length_append] at hrun
  rw [insert_eq fits habove]
  exact hrun

/-! ### Taking out and putting back -/

variable {after : State} {new : List Value}

/-- The items of a stack that was replaced. -/
theorem stack?_of_snapshot_eq (found : state.stack? id = some items)
    (h : after.snapshot = (state.setStack id new).snapshot) : after.stack? id = some new := by
  have hstack : after.snapshot.stack? id = (state.setStack id new).snapshot.stack? id := by rw [h]
  exact hstack.trans (stack?_setStack_self found new)

/-- A stack that was replaced is restored by its items. -/
theorem snapshot_setStack_of_snapshot_eq (found : state.stack? id = some items)
    (h : after.snapshot = (state.setStack id new).snapshot) :
    (after.setStack id items).snapshot = state.snapshot :=
  calc (after.setStack id items).snapshot
      = after.snapshot.setStack id items := rfl
    _ = ((state.setStack id new).setStack id items).snapshot := by
        rw [h]
        rfl
    _ = state.snapshot := by rw [setStack_setStack, setStack_self found]

/-- **What is taken out is put back** by the same depth: `shove` undoes `yank`. -/
theorem run_shove_run_yank (found : state.stack? id = some (above ++ value :: below)) :
    ∃ after restored, (Script.yank id above.length).run state = (.ok value, after) ∧
      after.snapshot = (state.setStack id (above ++ below)).snapshot ∧
      (Script.shove id above.length value).run after = (.ok (), restored) ∧
      restored.snapshot = state.snapshot := by
  obtain ⟨after, hyank, hafter⟩ := run_yank found (getElem?_length_append above below value)
  rw [eraseIdx_length_append] at hafter
  obtain ⟨restored, hshove, hrestored⟩ :=
    run_shove (stack?_of_snapshot_eq found hafter) above.length value
  have hplace : min above.length (above ++ below).length = above.length := by
    rw [List.length_append]
    omega
  rw [hplace, insertIdx_length_append, snapshot_setStack_of_snapshot_eq found hafter] at hrestored
  exact ⟨after, restored, hyank, hafter, hshove, hrestored⟩

/-- **What is put in is taken out** from under as many items as there was room for: `yank` undoes
`shove`. -/
theorem run_yank_run_shove (found : state.stack? id = some (above ++ below))
    (habove : above.length = min place (above ++ below).length) (value : Value) :
    ∃ after restored, (Script.shove id place value).run state = (.ok (), after) ∧
      after.snapshot = (state.setStack id (above ++ value :: below)).snapshot ∧
      (Script.yank id above.length).run after = (.ok value, restored) ∧
      restored.snapshot = state.snapshot := by
  obtain ⟨after, hshove, hafter⟩ := run_shove found place value
  rw [← habove, insertIdx_length_append] at hafter
  obtain ⟨restored, hyank, hrestored⟩ := run_yank (stack?_of_snapshot_eq found hafter)
    (getElem?_length_append above below value)
  rw [eraseIdx_length_append, snapshot_setStack_of_snapshot_eq found hafter] at hrestored
  exact ⟨after, restored, hshove, hafter, hyank, hrestored⟩

/-- **Depths are addressed exactly**, but for the largest. Looking, taking out and putting in work
by the indices of the stack as it is stored. An item is found exactly if the depth is less than the
number of items, with as many items above it, and putting it back restores the stack. At any other
depth nothing changes, and the operation gives up, except at the largest depth of a machine word,
where it goes out of bounds. An item that is put in at any depth has as many items above it, or all
of them, and taking it out from there restores the stack. -/
theorem addressing_exact (state : State) (id : StackId) (items : List Value)
    (found : state.stack? id = some items) (depth : UInt64) :
    (items.length < UInt64.size →
      (Script.peek id depth.toNat).run state =
        ((fetch items.reverse depth).map Prod.snd, state) ∧
      (∃ after, (Script.yank id depth.toNat).run state =
          ((fetch items.reverse depth).map Prod.snd, after) ∧
        after.snapshot = (state.setStack id (remove items.reverse depth).reverse).snapshot) ∧
      ∀ value, ∃ after, (Script.shove id depth.toNat value).run state = (.ok (), after) ∧
        after.snapshot =
          (state.setStack id (insert items.reverse depth value).reverse).snapshot) ∧
    (depth.toNat < items.length → ∃ above value below after restored,
      items = above ++ value :: below ∧ above.length = depth.toNat ∧
      (Script.peek id depth.toNat).run state = (.ok value, state) ∧
      (Script.yank id depth.toNat).run state = (.ok value, after) ∧
      after.snapshot = (state.setStack id (above ++ below)).snapshot ∧
      (Script.shove id depth.toNat value).run after = (.ok (), restored) ∧
      restored.snapshot = state.snapshot) ∧
    (items.length ≤ depth.toNat →
      let fault := if depth.toNat = maxDepth then Fault.outOfBounds else Fault.revert
      (Script.peek id depth.toNat).run state = (.error fault, state) ∧
      (Script.yank id depth.toNat).run state = (.error fault, state)) ∧
    ∀ value, ∃ above below after restored,
      items = above ++ below ∧ above.length = min depth.toNat items.length ∧
      (Script.shove id depth.toNat value).run state = (.ok (), after) ∧
      after.snapshot = (state.setStack id (above ++ value :: below)).snapshot ∧
      (Script.yank id (min depth.toNat items.length)).run after = (.ok value, restored) ∧
      restored.snapshot = state.snapshot := by
  refine ⟨?stored, ?reached, ?missed, ?inserted⟩
  case stored =>
    intro fits
    exact ⟨run_peek_eq_fetch found fits depth, run_yank_eq_fetch found fits depth,
      run_shove_eq_insert found fits depth⟩
  case reached =>
    intro hlt
    obtain ⟨above, value, below, rfl, hdepth⟩ := exists_item hlt
    obtain ⟨after, restored, hyank, hafter, hshove, hrestored⟩ := run_shove_run_yank found
    rw [← hdepth]
    exact ⟨above, value, below, after, restored, rfl, rfl,
      run_peek found (getElem?_length_append above below value), hyank, hafter, hshove, hrestored⟩
  case missed =>
    intro hle
    exact ⟨run_peek_tooDeep found hle, run_yank_tooDeep found hle⟩
  case inserted =>
    intro value
    obtain ⟨above, below, rfl, habove⟩ := exists_place items depth.toNat
    obtain ⟨after, restored, hshove, hafter, hyank, hrestored⟩ :=
      run_yank_run_shove found habove value
    rw [← habove]
    exact ⟨above, below, after, restored, rfl, rfl, hshove, hafter, hyank, hrestored⟩

/-- The bottom item of three is taken out and put back, the depth below it gives up, and an item
that is put in at the largest depth goes to the bottom. -/
theorem addressing_exact_bottom :
    let state := (State.ofRegistry .core).setStack .int [.int 5, .int 6, .int 7]
    state.stack? .int = some [.int 5, .int 6, .int 7] ∧
      (Script.yank .int 3).run state = (.error .revert, state) ∧
      (∃ after restored, (Script.yank .int 2).run state = (.ok (.int 7), after) ∧
        (Script.shove .int 2 (.int 7)).run after = (.ok (), restored) ∧
        restored.snapshot = state.snapshot) ∧
      ∃ after, (Script.shove .int maxDepth (.int 8)).run state = (.ok (), after) ∧
        after.stack? .int = some [.int 5, .int 6, .int 7, .int 8] := by
  intro state
  have found : state.stack? .int = some [.int 5, .int 6, .int 7] := rfl
  obtain ⟨-, hreached, -, -⟩ := addressing_exact state .int _ found 2
  obtain ⟨-, -, hmissed, -⟩ := addressing_exact state .int _ found 3
  obtain ⟨-, -, -, hinserted⟩ := addressing_exact state .int _ found (.ofNat maxDepth)
  refine ⟨found, (hmissed (by decide)).2, ?_, ?_⟩
  · obtain ⟨above, value, below, after, restored, hitems, habove, -, hyank, -, hshove, hrestored⟩ :=
      hreached (by decide)
    match above, habove with
    | [_, _], _ =>
      cases hitems
      exact ⟨after, restored, hyank, hshove, hrestored⟩
  · obtain ⟨above, below, after, -, hitems, habove, hshove, hafter, -⟩ := hinserted (.int 8)
    match above, habove with
    | [_, _, _], _ =>
      cases hitems
      exact ⟨after, hshove, stack?_of_snapshot_eq found hafter⟩

/-- **The largest depth is not refused**: looking there and taking out go out of bounds, where every
other depth that is not reached gives up. -/
theorem largest_depth_outOfBounds :
    let state := (State.ofRegistry .core).setStack .int [.int 5]
    state.stack? .int = some [.int 5] ∧
      (Script.peek .int maxDepth).run state = (.error .outOfBounds, state) ∧
      (Script.yank .int maxDepth).run state = (.error .outOfBounds, state) ∧
      Fault.outOfBounds ≠ Fault.revert :=
  ⟨rfl, rfl, rfl, by decide⟩

end State

end PushMachine
